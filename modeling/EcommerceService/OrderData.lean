import Mathlib.Algebra.BigOperators.Group.List.Basic
import EcommerceService.SagaCalls
import EcommerceService.WalletLedger

namespace EcommerceService.OrderData

open EcommerceService.Effects EcommerceService.Errors EcommerceService.Models
open EcommerceService.Database EcommerceService.Repositories EcommerceService.Backend
open EcommerceService.Services EcommerceService.Facades EcommerceService.OutboxPolling
open EcommerceService.Pool EcommerceService.TransactionEffects EcommerceService.Saga
open EcommerceService.SagaCalls EcommerceService.WalletLedger

section Readings

def infoOf (item : OrderItemModel) : OrderItemInfo := ⟨item.productId, item.quantity, item.price⟩

def orderSum (db : Tables) (orderId : ℕ) : ℚ :=
  ((itemsOf db orderId).map (fun item => item.price * (item.quantity : ℚ))).sum

def userOf (db : Tables) (orderId : ℕ) : Option ℕ := (db.order orderId).map (·.userId)

def payloadOf (db : Tables) (key : OutboxKey) : Option Json := (db.outboxEvent key).map (·.payload)

end Readings

def createdKey (orderId : ℕ) : OutboxKey := (aggregateId orderId, .orderCreated)

/-- The `ORDER_CREATED` row of the order carries this data. -/
def Recorded (info : CreateOrderInfo) (db : Tables) : Prop :=
  payloadOf db (createdKey info.order.id) = some (Json.order info).stringify

structure Matching (db : Tables) : Prop where
  row : ∀ key payload, payloadOf db key = some payload → ∃ info, key.1 = aggregateId info.order.id ∧
    payload = (Json.order info).stringify ∧ Recorded info db
  items : ∀ info, Recorded info db → info.orderItems.Perm ((itemsOf db info.order.id).map infoOf)
  user : ∀ info, Recorded info db → userOf db info.order.id = some info.order.userId
  placed : ∀ item ∈ db.orderItem, userOf db item.orderId ≠ none

theorem Recorded.unique {info info' : CreateOrderInfo} {db : Tables} (h : Recorded info db)
    (h' : Recorded info' db) (hid : info.order.id = info'.order.id) : info = info' := by
  have htext : some (Json.order info).stringify = some (Json.order info').stringify := by
    rw [← h, ← h', hid]
  simpa [Json.stringify] using htext

section Statements

variable {db db' : Tables} {info : CreateOrderInfo}

structure SameData (db db' : Tables) : Prop where
  orderItem : db'.orderItem = db.orderItem
  user : userOf db' = userOf db
  payload : payloadOf db' = payloadOf db

theorem SameData.refl (db : Tables) : SameData db db := ⟨rfl, rfl, rfl⟩

theorem SameData.trans {db'' : Tables} (h : SameData db db') (h' : SameData db' db'') :
    SameData db db'' :=
  ⟨h'.orderItem.trans h.orderItem, h'.user.trans h.user, h'.payload.trans h.payload⟩

theorem SameData.recorded (h : SameData db db') : Recorded info db' ↔ Recorded info db := by
  rw [Recorded, Recorded, h.payload]

theorem SameData.itemsOf (h : SameData db db') (o : ℕ) : itemsOf db' o = itemsOf db o :=
  congrArg (List.filter _) h.orderItem

theorem Matching.same (h : Matching db) (hs : SameData db db') : Matching db' where
  row key payload hrow := by
    obtain ⟨info, hkey, hpayload, hr⟩ := h.row key payload (hs.payload ▸ hrow)
    exact ⟨info, hkey, hpayload, hs.recorded.mpr hr⟩
  items info hr := by
    rw [hs.itemsOf]
    exact h.items info (hs.recorded.mp hr)
  user info hr := by
    rw [hs.user]
    exact h.user info (hs.recorded.mp hr)
  placed item hitem := by
    rw [hs.user]
    exact h.placed item (hs.orderItem ▸ hitem)

def Inserts : Query → Prop
  | .createOrder _ => True
  | .createManyOrderItems _ => True
  | .createOutboxEvent _ _ _ => True
  | _ => False

theorem exec_sameData {q : Query} {s t : Store} {r : Option q.Answer} (hq : ¬ Inserts q)
    (h : Store.exec q s r t) : SameData s.db t.db := by
  cases r with
  | none => exact h ▸ .refl s.db
  | some v =>
    obtain ⟨hallows, rfl⟩ := h
    cases q with
    | updateOrder id status =>
      obtain ⟨old, hold, rfl⟩ := hallows
      refine ⟨rfl, funext (fun id' => ?_), rfl⟩
      by_cases hid : id' = id
      · subst hid
        simp [userOf, Store.after, Query.apply, hold]
      · simp [userOf, Store.after, Query.apply, hid]
    | updateOutboxEvent key status =>
      obtain ⟨old, hold, rfl⟩ := hallows
      refine ⟨rfl, rfl, funext (fun key' => ?_)⟩
      by_cases hkey : key' = key
      · subst hkey
        simp [payloadOf, Store.after, Query.apply, hold]
      · simp [payloadOf, Store.after, Query.apply, hkey]
    | createOrder userId => exact absurd trivial hq
    | createManyOrderItems items => exact absurd trivial hq
    | createOutboxEvent key payload status => exact absurd trivial hq
    | _ => exact ⟨rfl, rfl, rfl⟩

theorem confined_sameData {A : Type} {P : Query → Prop} {Q : Error → Prop} {p : Statements A}
    {s t : Store} {x : Exit Error A} (h : Effect.Confined Effect.anyAnswer P Q p)
    (hP : ∀ q, P q → ¬ Inserts q) (hr : Effect.Runs Store.exec p s x t) : SameData s.db t.db :=
  (Effect.Confined.runs (F := fun u : Store => SameData s.db u.db) h hr (.refl _)
    (fun _ _ _ _ _ _ => trivial) (fun _ _ _ _ hq hexec hs => hs.trans (exec_sameData (hP _ hq) hexec))).2

theorem onStock_inserts {q : Query} (h : onStock q) : ¬ Inserts q := by
  cases q with
  | selectStocksForUpdate ids => exact id
  | updateManyStock p n => exact id
  | _ => exact h.elim

theorem onWallet_inserts {q : Query} (h : onWallet q) : ¬ Inserts q := by
  cases q with
  | findUniqueOrThrowWallet u => exact id
  | updateWallet id v n => exact fun h => h
  | createPoint p => exact id
  | _ => exact h.elim

theorem exec_createOutboxEvent {key : OutboxKey} {payload : Json} {status : OutboxEventStatus}
    {row : OutboxEventRow} {s t : Store}
    (h : Store.exec (.createOutboxEvent key payload status) s (some row) t) :
    payloadOf s.db key = none ∧ t.db.orderItem = s.db.orderItem ∧ userOf t.db = userOf s.db ∧
      payloadOf t.db = Function.update (payloadOf s.db) key (some payload) := by
  obtain ⟨⟨hnone, rfl⟩, rfl⟩ := h
  refine ⟨by simp [payloadOf, hnone], rfl, rfl, funext (fun key' => ?_)⟩
  by_cases hkey : key' = key
  · subst hkey
    simp [payloadOf, Store.after, Query.apply]
  · simp [payloadOf, Store.after, Query.apply, hkey]

theorem exec_createOrder {userId id : ℕ} {row : OrderRow} {s t : Store}
    (h : Store.exec (.createOrder userId) s (some (id, row)) t) : s.db.order id = none ∧
      t.db.orderItem = s.db.orderItem ∧ userOf t.db = Function.update (userOf s.db) id (some userId) ∧
      payloadOf t.db = payloadOf s.db := by
  obtain ⟨⟨hnone, rfl⟩, rfl⟩ := h
  refine ⟨hnone, rfl, funext (fun id' => ?_), rfl⟩
  by_cases hid : id' = id
  · subst hid
    simp [userOf, Store.after, Query.apply]
  · simp [userOf, Store.after, Query.apply, hid]

theorem exec_recorded {q : Query} {s t : Store} {r : Option q.Answer} (h : Store.exec q s r t)
    (hr : Recorded info s.db) : Recorded info t.db := by
  by_cases hq : Inserts q
  · cases r with
    | none => exact h ▸ hr
    | some v =>
      cases q with
      | createOrder userId =>
        obtain ⟨_, rfl⟩ := h
        exact hr
      | createManyOrderItems items =>
        obtain ⟨_, rfl⟩ := h
        exact hr
      | createOutboxEvent key payload status =>
        obtain ⟨hnone, _, _, hpayload⟩ := exec_createOutboxEvent h
        have hne : createdKey info.order.id ≠ key := by
          rintro rfl
          cases hnone.symm.trans hr
        rw [Recorded, hpayload, Function.update_of_ne hne]
        exact hr
      | _ => exact hq.elim
  · exact (exec_sameData hq h).recorded.mpr hr

theorem runs_recorded {E A : Type} {p : Effect Query (fun q => Option q.Answer) E A} {s t : Store}
    {x : Exit E A} (h : Effect.Runs Store.exec p s x t) (hr : Recorded info s.db) :
    Recorded info t.db := by
  induction h with
  | succeed => exact hr
  | fail => exact hr
  | die => exact hr
  | perform hc _ ih => exact ih (exec_recorded hc hr)

theorem Matching.note {ty : OutboxEventType} {status : OutboxEventStatus} {row : OutboxEventRow}
    {s t : Store} (h : Matching s.db) (hr : Recorded info s.db)
    (hexec : Store.exec (.createOutboxEvent (aggregateId info.order.id, ty)
      (Json.order info).stringify status) s (some row) t) : Matching t.db := by
  obtain ⟨hnone, hitems, huser, hpayload⟩ := exec_createOutboxEvent hexec
  have hold : ∀ info', Recorded info' t.db → Recorded info' s.db := by
    intro info' hr'
    rw [Recorded, hpayload] at hr'
    by_cases hkey : createdKey info'.order.id = (aggregateId info.order.id, ty)
    · obtain ⟨hid, rfl⟩ := Prod.mk.inj hkey
      cases hnone.symm.trans hr
    · rwa [Function.update_of_ne hkey] at hr'
  have hitemsOf : ∀ o, itemsOf t.db o = itemsOf s.db o := fun o => congrArg (List.filter _) hitems
  refine ⟨fun key payload hrow => ?_, fun info' hr' => ?_, fun info' hr' => ?_, fun item hitem => ?_⟩
  · rw [hpayload] at hrow
    by_cases hkey : key = (aggregateId info.order.id, ty)
    · subst hkey
      rw [Function.update_self] at hrow
      exact ⟨info, rfl, (Option.some.inj hrow).symm, exec_recorded hexec hr⟩
    · rw [Function.update_of_ne hkey] at hrow
      obtain ⟨info', hid, htext, hr'⟩ := h.row key payload hrow
      exact ⟨info', hid, htext, exec_recorded hexec hr'⟩
  · rw [hitemsOf]
    exact h.items info' (hold info' hr')
  · rw [huser]
    exact h.user info' (hold info' hr')
  · rw [huser]
    exact h.placed item (hitems ▸ hitem)

end Statements

section Placing

variable {userId : ℕ} {commands : List CreateOrderItemCommand} {info : CreateOrderInfo} {s t : Store}

def rowsOf (orderId : ℕ) (commands : List CreateOrderItemCommand) : List OrderItemModel :=
  commands.map (fun command => ⟨orderId, command.productId, command.quantity, command.price⟩)

/-- What the transaction of a new order has done. -/
structure Placed (userId : ℕ) (commands : List CreateOrderItemCommand) (info : CreateOrderInfo)
    (s t : Store) : Prop where
  new : s.db.order info.order.id = none
  owner : info.order.userId = userId
  user : userOf t.db = Function.update (userOf s.db) info.order.id (some userId)
  orderItem : t.db.orderItem = s.db.orderItem ++ rowsOf info.order.id commands
  payload : payloadOf t.db = Function.update (payloadOf s.db) (createdKey info.order.id)
    (some (Json.order info).stringify)
  orderItems : info.orderItems.Perm ((itemsOf t.db info.order.id).map infoOf)

theorem runs_placed (h : Effect.Runs Store.exec
    ((OrderService.createOrder userId commands).flatMap OrderFacade.createOutboxEvent) s
    (.success info) t) : Placed userId commands info s t := by
  obtain ⟨_, u, hcreate, hemit⟩ := Effect.runs_flatMap_success.mp h
  obtain ⟨_, hrow, rfl⟩ := Effect.runs_map_success.mp hemit
  obtain ⟨row, hrow⟩ := runs_createOutboxEvent hrow
  obtain ⟨_, hitems, huser, hpayload⟩ := exec_createOutboxEvent hrow
  obtain ⟨order, v, horder, hmodels⟩ := Effect.runs_flatMap_success.mp hcreate
  obtain ⟨models, hmany, rfl⟩ := Effect.runs_map_success.mp hmodels
  obtain ⟨hmodel, hinsert⟩ := runs_createOrder horder
  obtain ⟨hnone, hitems₀, huser₀, hpayload₀⟩ := exec_createOrder hinsert
  obtain ⟨⟨_, rfl⟩, param, rest, hparams, hperm⟩ := runs_createMany hmany
  have hid : param.orderId = order.id := by
    cases commands with
    | nil => cases hparams
    | cons command commands =>
      obtain ⟨rfl, _⟩ := List.cons.inj hparams
      rfl
  rw [hid] at hperm
  refine ⟨hnone, congrArg OrderModel.userId hmodel, huser.trans huser₀, ?_, ?_, ?_⟩
  · exact hitems.trans (congrArg (· ++ _) hitems₀)
  · exact hpayload.trans (congrArg (Function.update · _ _) hpayload₀)
  · rw [itemsOf, hitems]
    exact hperm.map infoOf

theorem Placed.recorded (h : Placed userId commands info s t) : Recorded info t.db := by
  rw [Recorded, h.payload, Function.update_self]

theorem Placed.itemsOf (h : Placed userId commands info s t) (hs : Matching s.db) :
    itemsOf t.db info.order.id = rowsOf info.order.id commands := by
  have hold : s.db.orderItem.filter (fun item => item.orderId = info.order.id) = [] := by
    refine List.filter_eq_nil_iff.mpr (fun item hitem hid => hs.placed item hitem ?_)
    rw [of_decide_eq_true hid, userOf, h.new]
    rfl
  have hnew : (rowsOf info.order.id commands).filter (fun item => item.orderId = info.order.id) =
      rowsOf info.order.id commands := by
    refine List.filter_eq_self.mpr (fun item hitem => ?_)
    obtain ⟨command, _, rfl⟩ := List.mem_map.mp hitem
    exact decide_eq_true rfl
  rw [Database.itemsOf, h.orderItem, List.filter_append, hold, hnew, List.nil_append]

theorem Placed.other (h : Placed userId commands info s t) {o : ℕ} (ho : o ≠ info.order.id) :
    Database.itemsOf t.db o = Database.itemsOf s.db o := by
  have hnew : (rowsOf info.order.id commands).filter (fun item => item.orderId = o) = [] := by
    refine List.filter_eq_nil_iff.mpr (fun item hitem hid => ho ?_)
    obtain ⟨command, _, rfl⟩ := List.mem_map.mp hitem
    exact (of_decide_eq_true hid).symm
  rw [Database.itemsOf, h.orderItem, List.filter_append, hnew, List.append_nil, Database.itemsOf]

theorem Placed.recorded_cases (h : Placed userId commands info s t) {info' : CreateOrderInfo}
    (hr : Recorded info' t.db) :
    info' = info ∨ info'.order.id ≠ info.order.id ∧ Recorded info' s.db := by
  by_cases hid : info'.order.id = info.order.id
  · exact .inl (hr.unique h.recorded hid)
  · have hkey : createdKey info'.order.id ≠ createdKey info.order.id := by
      simpa [createdKey] using hid
    rw [Recorded, h.payload, Function.update_of_ne hkey] at hr
    exact .inr ⟨hid, hr⟩

theorem Matching.place (hs : Matching s.db) (h : Placed userId commands info s t) :
    Matching t.db := by
  have hfresh : ∀ info', Recorded info' s.db → info'.order.id ≠ info.order.id := by
    intro info' hr hid
    have huser := hs.user info' hr
    rw [hid, userOf, h.new] at huser
    cases huser
  refine ⟨fun key payload hrow => ?_, fun info' hr => ?_, fun info' hr => ?_, fun item hitem => ?_⟩
  · by_cases hkey : key = createdKey info.order.id
    · subst hkey
      rw [h.payload, Function.update_self] at hrow
      exact ⟨info, rfl, (Option.some.inj hrow).symm, h.recorded⟩
    · rw [h.payload, Function.update_of_ne hkey] at hrow
      obtain ⟨info', hid, htext, hr⟩ := hs.row key payload hrow
      have hkey' : createdKey info'.order.id ≠ createdKey info.order.id := by
        simpa [createdKey] using hfresh info' hr
      refine ⟨info', hid, htext, ?_⟩
      rw [Recorded, h.payload, Function.update_of_ne hkey']
      exact hr
  · obtain rfl | ⟨hid, hr⟩ := h.recorded_cases hr
    · exact h.orderItems
    · rw [h.other hid]
      exact hs.items info' hr
  · obtain rfl | ⟨hid, hr⟩ := h.recorded_cases hr
    · rw [h.user, Function.update_self, h.owner]
    · rw [h.user, Function.update_of_ne hid]
      exact hs.user info' hr
  · rw [h.user]
    by_cases hid : item.orderId = info.order.id
    · rw [hid, Function.update_self]
      exact Option.some_ne_none _
    · rw [Function.update_of_ne hid]
      rw [h.orderItem] at hitem
      obtain hold | hnew := List.mem_append.mp hitem
      · exact hs.placed item hold
      · obtain ⟨command, _, rfl⟩ := List.mem_map.mp hnew
        exact absurd rfl hid

end Placing

section Worlds

def Recalls : Job → Tables → Prop
  | .order _ _, _ => True
  | .message m, db => ∀ info, orderInfoOf (received m.value) = some info → Recorded info db
  | .event _ e, db => ∃ info, Holds e info ∧ Recorded info db

/-- The rows, the messages and the events all say of an order what is recorded of it. -/
structure Faithful (w : World) : Prop where
  rows : Matching w.store.db
  message : ∀ m ∈ w.published, Recalls (.message m) w.store.db
  batch : ∀ e ∈ w.batches, Recalls (.event e.1 e.2) w.store.db

def Keeps (db db' : Tables) : Prop := ∀ info, Recorded info db → Recorded info db'

theorem Recalls.grow {job : Job} {db db' : Tables} (h : Recalls job db) (hk : Keeps db db') :
    Recalls job db' := by
  cases job with
  | order userId items => trivial
  | message m => exact fun info hinfo => hk info (h info hinfo)
  | event poll e =>
    obtain ⟨info, hpayload, hr⟩ := h
    exact ⟨info, hpayload, hk info hr⟩

theorem Recalls.readable {job : Job} {db : Tables} (h : Recalls job db) : Readable job := by
  cases job with
  | event poll e =>
    obtain ⟨info, hpayload, _⟩ := h
    exact ⟨info, hpayload⟩
  | _ => trivial

theorem Faithful.initial {w : World} (h : Initial w) : Faithful w where
  rows := by
    have hnone : ∀ info, ¬ Recorded info w.store.db := by simp [Recorded, payloadOf, h.outboxEvent]
    exact ⟨by simp [payloadOf, h.outboxEvent], fun info hr => absurd hr (hnone info),
      fun info hr => absurd hr (hnone info), by simp [h.orderItem]⟩
  message := by simp [h.published]
  batch := by simp [h.batches]

theorem Faithful.advance {w : World} {t : Store} (h : Faithful w) (ht : Matching t.db)
    (hk : Keeps w.store.db t.db) : Faithful { w with store := t } :=
  ⟨ht, fun m hm => (h.message m hm).grow hk, fun e he => (h.batch e he).grow hk⟩

theorem Faithful.poll {w w' : World} (h : Faithful w) (hw : pollEvents w w') :
    Faithful w' ∧ w'.store = w.store := by
  obtain ⟨poll, rows, ⟨_, _, hrows, _⟩, rfl⟩ := hw
  refine ⟨⟨h.rows, h.message, fun e he => ?_⟩, rfl⟩
  obtain he | he := List.mem_append.mp he
  · exact h.batch e he
  · obtain ⟨⟨key, row⟩, hmem, rfl⟩ := List.mem_map.mp he
    obtain ⟨hrow, _⟩ := hrows _ hmem
    have hpayload : payloadOf w.store.db key = some row.payload := congrArg (Option.map _) hrow
    obtain ⟨info, _, htext, hr⟩ := h.rows.row key row.payload hpayload
    exact ⟨info, congrArg Json.stringify htext, hr⟩

variable {job : Job} {s t : Store}

theorem makes_statement {q : Query} {v : q.Answer} (h : Makes job (.statement q))
    (hs : Matching s.db) (hk : Recalls job s.db) (hexec : Store.exec q s (some v) t) :
    Matching t.db := by
  cases h with
  | outOfStock _ hinfo => exact hs.note (hk _ hinfo) hexec
  | findOrderCreated _ _ => exact hs.same (exec_sameData id hexec)
  | setInit _ _ => exact hs.same (exec_sameData id hexec)
  | paymentFailed _ hinfo => exact hs.note (hk _ hinfo) hexec
  | success => exact hs.same (exec_sameData id hexec)
  | failOrder _ _ => exact hs.same (exec_sameData id hexec)
  | failed => exact hs.same (exec_sameData id hexec)

theorem makes_commit {kind : TransactionKind} {A : Type} {body : Statements A} {a : A}
    (h : Makes job (.transaction kind A body)) (hs : Matching s.db) (hk : Recalls job s.db)
    (hr : Effect.Runs Store.exec body s (.success a) t) : Matching t.db := by
  cases h with
  | order => exact hs.place (runs_placed (runs_effectWithTransaction.mp hr))
  | @deductStock m info _ hinfo =>
    obtain ⟨u, _, hdeduct, hemit⟩ := Effect.runs_tap_success.mp (runs_effectWithTransaction.mp hr)
    obtain ⟨row, hrow⟩ := runs_createOutboxEvent hemit
    have hsame := confined_sameData (deductStock_confined _) (fun _ => onStock_inserts) hdeduct
    exact (hs.same hsame).note (hsame.recorded.mpr (hk info hinfo)) hrow
  | @payment m info _ hinfo =>
    obtain ⟨u, _, hpay, hemit⟩ := Effect.runs_tap_success.mp (runs_effectWithTransaction.mp hr)
    obtain ⟨row, hrow⟩ := runs_createOutboxEvent hemit
    have hsame := confined_sameData (completePayment_confined _ _) (fun _ => onWallet_inserts) hpay
    exact (hs.same hsame).note (hsame.recorded.mpr (hk info hinfo)) hrow
  | @orderSuccess m info _ hinfo =>
    obtain ⟨u, _, row, hset, hrow⟩ := runs_succeeding (runs_effectWithTransaction.mp hr)
    have hsame := exec_sameData id hset
    exact (hs.same hsame).note (hsame.recorded.mpr (hk info hinfo)) hrow
  | restore _ _ =>
    exact hs.same (confined_sameData (restoring_confined _) (fun _ => onStock_inserts)
      (runs_effectWithTransaction.mp hr))

theorem exec_keeps {q : Call} {w w' : World} {r : q.Reply} (h : World.exec q w r w') :
    Keeps w.store.db w'.store.db := by
  cases World.exec_change h with
  | same => exact fun _ => id
  | statement hexec => exact fun _ => exec_recorded hexec
  | @commit _ _ _ _ _ t hr =>
    have hkeeps : Keeps w.store.db t.db := fun _ => runs_recorded hr
    exact hkeeps
  | publish => exact fun _ => id

theorem makes_faithful {q : Call} {w w' : World} {r : q.Reply} (h : Makes job q) (hw : Faithful w)
    (hk : Recalls job w.store.db) (hexec : World.exec q w r w') : Faithful w' := by
  have hgrow := exec_keeps hexec
  cases World.exec_change hexec with
  | same => exact hw
  | statement hq => exact hw.advance (makes_statement h hw.rows hk hq) hgrow
  | commit hr =>
    have hrows := makes_commit h hw.rows hk hr
    exact hw.advance hrows hgrow
  | publish =>
    refine ⟨hw.rows, fun m hm => ?_, hw.batch⟩
    obtain hm | hm := List.mem_append.mp hm
    · exact hw.message m hm
    · obtain rfl := List.mem_singleton.mp hm
      cases h with
      | @publish e info hpayload =>
        obtain ⟨info', hpayload', hr⟩ := hk
        intro info'' hinfo
        have hvalue : orderInfoOf (received e.payload) = some info'' := hinfo
        rw [hpayload', (payload_decodes info').2.2] at hvalue
        cases hvalue
        exact hr

end Worlds

section Runs

def grows (_ : Call) (w w' : World) : Prop := Keeps w.store.db w'.store.db

def Made (q : Call) (w : World) : Prop := ∃ job, Makes job q ∧ Recalls job w.store.db

theorem start_recalls {job : Job} {w w' : World} (hw : Faithful w) (h : job.start w w') :
    Faithful w' ∧ w'.store = w.store ∧ Recalls job w'.store.db := by
  cases job with
  | order userId items =>
    cases h
    exact ⟨hw, rfl, trivial⟩
  | message m =>
    obtain ⟨hm, rfl⟩ := h
    exact ⟨hw, rfl, hw.message m hm⟩
  | event poll e =>
    obtain ⟨he, rfl⟩ := h
    exact ⟨⟨hw.rows, hw.message, fun e' he' => hw.batch e' (List.mem_of_mem_erase he')⟩, rfl,
      hw.batch _ he⟩

theorem program_faithful {job : Job} {w : World} (h : Recalls job w.store.db) :
    Safe World.exec Faithful grows (fun q w w' => grows q w w' ∧ Made q w) (fun _ _ => True)
      job.program w := by
  refine (Safe.of_within (calls_program h.readable) (F := fun w : World => Recalls job w.store.db) h
    (fun _ _ _ hj hk => hk.grow hj) (fun c w r w' hc hw hk hexec => ?_)).mono (fun _ _ _ => trivial)
  have hgrow := exec_keeps hexec
  exact ⟨⟨w, w', hexec⟩, makes_faithful hc hw hk hexec, ⟨hgrow, job, hc, hk⟩, hk.grow hgrow⟩

theorem saga_faithful : Sound saga anyStep Faithful grows (fun q w w' => grows q w w' ∧ Made q w) where
  refl _ _ _ := id
  trans _ _ _ _ h h' info := h' info ∘ h info
  env w w' hw h := by
    obtain ⟨hw', hstore⟩ := hw.poll h
    exact ⟨hw', fun _ => by simp [grows, hstore, Keeps]⟩
  start _ job w w' hw h := by
    obtain ⟨hw', hstore, hk⟩ := start_recalls hw h
    exact ⟨hw', fun _ => by simp [grows, hstore, Keeps], program_faithful hk⟩
  call c i q r w' _ _ _ _ hg _ _ _ _ _ := hg.1

/-- The world is faithful, and every process of the saga keeps it so. -/
structure Steady (c : Configuration) : Prop where
  faithful : Faithful c.shared
  safe : AllSafe saga Faithful grows (fun q w w' => grows q w w' ∧ Made q w) c

variable {c c' : Configuration}

theorem Steady.initial {w : World} (h : Initial w) : Steady (quiet w) :=
  ⟨.initial h, by rintro i job p ⟨⟩⟩

theorem Steady.step {l : Action} (h : Steady c) (hs : Step saga c l c') : Steady c' := by
  obtain ⟨hfaithful, hsafe⟩ := saga_faithful.step h.faithful h.safe hs trivial
  exact ⟨hfaithful, hsafe⟩

theorem Steady.move {w : World} (h : Steady c) (hw : Faithful w)
    (hk : Keeps c.shared.store.db w.store.db) : Steady ⟨w, c.pool⟩ :=
  ⟨hw, h.safe.shift saga_faithful.trans (fun _ _ _ => hk)⟩

theorem Steady.made {i : ℕ} {q : Call} {r : q.Reply} (h : Steady c)
    (hs : Step saga c (.call i q r) c') : Made q c.shared := by
  cases hs with
  | call hi hexec => exact (h.safe _ _ _ hi c.shared (fun _ => id) h.faithful _ _ hexec).2.1.2

theorem step_keeps {l : Action} (hs : Step saga c l c') :
    Keeps c.shared.store.db c'.shared.store.db := by
  refine step_shared (R := fun w w' => Keeps w.store.db w'.store.db) (fun w w' hstore _ => ?_)
    (fun _ _ _ _ => exec_keeps) hs
  rw [hstore]
  exact fun _ => id

end Runs

section Payments

variable {db db' : Tables} {info : CreateOrderInfo}

def Charged (userId : ℕ) (amount : ℚ) (db db' : Tables) : Prop :=
  ∃ id row, db.wallet id = some row ∧ row.userId = userId ∧
    db'.wallet = Function.update db.wallet id
      (some { row with version := row.version + 1, totalPoint := row.totalPoint - amount }) ∧
    db'.point = db.point ++ [⟨id, -amount, .use⟩]

theorem paying_charged {s t : Store} {wallet : WalletModel}
    (h : Effect.Runs Store.exec (PrismaService.effectWithTransaction (UserFacade.paying info)) s
      (.success wallet) t) : Charged info.order.userId info.totalAmount s.db t.db := by
  have hbody : Effect.Runs Store.exec (WalletJob.processOrderPayment info).body s
      (.success wallet.id) t := Effect.runs_map_success.mpr ⟨wallet, h, rfl⟩
  obtain ⟨row, hrow, huser, ⟨old, hold, _, hwallet⟩, hpoint, _⟩ := job_booked hbody
  cases hold.symm.trans hrow
  refine ⟨wallet.id, row, hrow, huser, ?_, hpoint⟩
  rw [hwallet, WalletJob.amount, ← sub_eq_add_neg]

theorem totalAmount_eq (hs : Matching db) (hr : Recorded info db) :
    info.totalAmount = orderSum db info.order.id := by
  have hperm : (info.orderItems.map (fun item => item.price * (item.quantity : ℚ))).Perm
      ((itemsOf db info.order.id).map (fun item => item.price * (item.quantity : ℚ))) := by
    simpa [infoOf, Function.comp_def] using
      (hs.items info hr).map (fun item => item.price * (item.quantity : ℚ))
  calc info.totalAmount
      = (info.orderItems.map (fun item => item.price * (item.quantity : ℚ))).sum :=
        List.sum_eq_foldl.symm
    _ = orderSum db info.order.id := hperm.sum_eq

theorem Steady.charged {c c' : Configuration} {i o : ℕ} {A : Type} {body : Statements A}
    {r : Settled A} (h : Steady c)
    (hs : Step saga c (.call i (.transaction (.payment o) A body) r) c') :
    (c'.shared = c.shared ∧ ∃ e, r = .rejected e) ∨
      ∃ info, info.order.id = o ∧ Recorded info c.shared.store.db ∧
        Charged info.order.userId (orderSum c.shared.store.db o) c.shared.store.db
          c'.shared.store.db := by
  obtain ⟨job, hmakes, hk⟩ := h.made hs
  have hrows := h.faithful.rows
  cases hs with
  | call _ hexec =>
    cases hmakes with
    | @payment m info _ hinfo =>
      have hr := hk info hinfo
      have hcharged : ∀ wallet t, Effect.Runs Store.exec
          (PrismaService.effectWithTransaction (UserFacade.paying info)) c.shared.store
          (.success wallet) t → Charged info.order.userId (orderSum c.shared.store.db info.order.id)
            c.shared.store.db t.db :=
        fun wallet t hrun => totalAmount_eq hrows hr ▸ paying_charged hrun
      match r with
      | .resolved wallet =>
        obtain ⟨t, hrun, rfl⟩ := hexec
        exact .inr ⟨info, rfl, hr, hcharged wallet t hrun⟩
      | .rejected (some e) =>
        obtain ⟨_, rfl⟩ := hexec
        exact .inl ⟨rfl, _, rfl⟩
      | .rejected none =>
        obtain rfl | ⟨wallet, t, hrun, rfl⟩ := hexec
        · exact .inl ⟨rfl, _, rfl⟩
        · exact .inr ⟨info, rfl, hr, hcharged wallet t hrun⟩

end Payments

end EcommerceService.OrderData
