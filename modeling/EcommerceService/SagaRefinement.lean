import EcommerceService.Market
import EcommerceService.SagaBooks

namespace EcommerceService.SagaRefinement

open EcommerceService.Effects EcommerceService.Errors EcommerceService.Models
open EcommerceService.Database EcommerceService.Repositories EcommerceService.Backend
open EcommerceService.Services EcommerceService.Facades EcommerceService.OutboxPolling
open EcommerceService.Pool EcommerceService.TransactionEffects EcommerceService.StockEffects
open EcommerceService.Restoration (ordered)
open EcommerceService.OrderLife EcommerceService.Saga EcommerceService.SagaCalls
open EcommerceService.SagaInvariant EcommerceService.SagaSafety
open EcommerceService.OrderData EcommerceService.SagaBooks
open EcommerceService.Market (Line Goods Deed)

section Views

def lineOf (item : OrderItemModel) : Line := ⟨item.productId, item.quantity, item.price⟩

/-- The tables, the event rows among them, stand as the market does. -/
structure Shows (s : Store) (m : Market.State) : Prop where
  stock : m.goods.stock = s.db.productStock
  wallet : ∀ id, m.goods.wallet id = (s.db.wallet id).map balance
  user : ∀ o, (m.order o).map (·.userId) = userOf s.db o
  lines : ∀ o order, m.order o = some order → order.lines = (itemsOf s.db o).map lineOf
  stage : ∀ o, Life s o (m.phase o)

def opening (db : Tables) : Market.State :=
  ⟨⟨db.productStock, fun id => (db.wallet id).map balance⟩, fun _ => none⟩

structure SameOrders (db db' : Tables) : Prop where
  orderItem : db'.orderItem = db.orderItem
  user : userOf db' = userOf db

end Views

section Turns

variable {s t : Store} {m : Market.State} {w : List Event} {o : ℕ}

theorem SameOrders.of_data {db db' : Tables} (h : SameData db db') : SameOrders db db' :=
  ⟨h.orderItem, h.user⟩

theorem SameOrders.create {u : Store} {key : OutboxKey} {payload : Json} {status : OutboxEventStatus}
    {row : OutboxEventRow} (h : SameData s.db u.db)
    (hrow : Store.exec (.createOutboxEvent key payload status) u (some row) t) :
    SameOrders s.db t.db := by
  obtain ⟨_, hitems, huser, _⟩ := exec_createOutboxEvent hrow
  exact ⟨hitems.trans h.orderItem, huser.trans h.user⟩

theorem Shows.later (h : Shows s m) (ht : Lives t) (hj : t.journal = s.journal ++ w) (o : ℕ) :
    ∃ ph, Life t o ph ∧ Monitor.run next (m.phase o) (life o w) = some ph := by
  obtain ⟨ph, hph⟩ := ht.stage o
  have hrun := hph.accepted
  rw [hj, life_append, Monitor.run_append, (h.stage o).accepted] at hrun
  exact ⟨ph, hph, hrun⟩

theorem Shows.stays (h : Shows s m) (ht : Lives t) (hj : t.journal = s.journal ++ w)
    (ho : life o w = []) : Life t o (m.phase o) := by
  obtain ⟨ph, hph, hrun⟩ := h.later ht hj o
  rw [ho] at hrun
  cases hrun
  exact hph

theorem Shows.same (h : Shows s m) (ht : Lives t) (hj : t.journal = s.journal ++ w)
    (hw : ∀ o, life o w = []) (hgoods : SameGoods s t) (hsame : SameOrders s.db t.db) : Shows t m where
  stock := h.stock.trans hgoods.productStock.symm
  wallet id := by rw [hgoods.wallet, h.wallet]
  user o := by rw [hsame.user, h.user]
  lines o order horder := by
    rw [h.lines o order horder, itemsOf, itemsOf, hsame.orderItem]
  stage o := h.stays ht hj (hw o)

theorem Shows.turn {deed : Deed} (h : Shows s m) (ht : Lives t) (hj : t.journal = s.journal ++ w)
    (hw : life o w = [deed.event]) (hothers : ∀ o', o' ≠ o → life o' w = [])
    (hplace : deed.event ≠ .place) (hsame : SameOrders s.db t.db)
    (hmove : ∀ order, m.order o = some order → ∃ goods, deed.move order m.goods = some goods ∧
      goods.stock = t.db.productStock ∧ ∀ id, goods.wallet id = (t.db.wallet id).map balance) :
    ∃ m', m.act o deed = some m' ∧ Shows t m' := by
  obtain ⟨ph, hph, hrun⟩ := h.later ht hj o
  rw [hw] at hrun
  obtain ⟨ph', hnext, hend⟩ := Monitor.run_cons_some hrun
  cases hend
  cases horder : m.order o with
  | none =>
    rw [Market.State.phase_none horder] at hnext
    cases he : deed.event with
    | place => exact absurd he hplace
    | _ =>
      rw [he] at hnext
      cases hnext
  | some order =>
    rw [Market.State.phase_some horder] at hnext
    obtain ⟨goods, hgoods, hstock, hwallet⟩ := hmove order horder
    refine ⟨_, Market.State.act_next horder hnext hgoods, hstock, hwallet, fun o' => ?_,
      fun o' order' horder' => ?_, fun o' => ?_⟩
    · rw [hsame.user, ← h.user]
      by_cases ho : o' = o
      · subst ho
        simp only [Function.update_self, horder, Option.map_some]
      · simp only [Function.update_of_ne ho]
    · have hlines : ∀ o₁ order₁, m.order o₁ = some order₁ →
          order₁.lines = (itemsOf t.db o₁).map lineOf := by
        intro o₁ order₁ horder₁
        rw [h.lines o₁ order₁ horder₁, itemsOf, itemsOf, hsame.orderItem]
      by_cases ho : o' = o
      · subst ho
        cases (Function.update_self o' _ m.order).symm.trans horder'
        exact hlines o' order horder
      · exact hlines o' order' ((Function.update_of_ne ho _ _).symm.trans horder')
    · by_cases ho : o' = o
      · subst ho
        rw [Market.State.phase_some (Function.update_self o' _ m.order)]
        exact hph
      · simpa [Market.State.phase, ho] using h.stays ht hj (hothers o' ho)

theorem Shows.event {deed : Deed} (h : Shows s m) (ht : Lives t) (hj : t.journal = s.journal ++ w)
    (hw : life o w = [deed.event]) (hothers : ∀ o', o' ≠ o → life o' w = [])
    (hplace : deed.event ≠ .place) (hsame : SameOrders s.db t.db) (hgoods : SameGoods s t)
    (hidle : ∀ order, deed.move order m.goods = some m.goods) :
    ∃ m', m.act o deed = some m' ∧ Shows t m' := by
  refine h.turn ht hj hw hothers hplace hsame (fun order _ => ⟨m.goods, hidle order, ?_, fun id => ?_⟩)
  · rw [h.stock, hgoods.productStock]
  · rw [h.wallet, hgoods.wallet]

theorem Shows.place {userId : ℕ} {commands : List CreateOrderItemCommand} {info : CreateOrderInfo}
    (h : Shows s m) (hs : Matching s.db) (ht : Lives t) (hj : t.journal = s.journal ++ w)
    (hw : life info.order.id w = [.place]) (hothers : ∀ o', o' ≠ info.order.id → life o' w = [])
    (hp : Placed userId commands info s t) (hgoods : SameGoods s t) :
    ∃ m', m.act info.order.id (.place userId ((rowsOf info.order.id commands).map lineOf)) = some m' ∧
      Shows t m' := by
  have hnone : m.order info.order.id = none := by
    have huser := h.user info.order.id
    rw [userOf, hp.new] at huser
    exact Option.map_eq_none_iff.mp huser
  obtain ⟨ph, hph, hrun⟩ := h.later ht hj info.order.id
  rw [hw, Market.State.phase_none hnone] at hrun
  cases hrun
  refine ⟨_, Market.State.act_place hnone, h.stock.trans hgoods.productStock.symm, fun id => ?_,
    fun o => ?_, fun o order horder => ?_, fun o => ?_⟩
  · rw [hgoods.wallet, h.wallet]
  · by_cases ho : o = info.order.id
    · subst ho
      rw [hp.user]
      simp only [Function.update_self, Option.map_some]
    · rw [hp.user, Function.update_of_ne ho, ← h.user]
      simp only [Function.update_of_ne ho]
  · by_cases ho : o = info.order.id
    · subst ho
      cases (Function.update_self _ _ m.order).symm.trans horder
      rw [hp.itemsOf hs]
    · rw [hp.other ho]
      exact h.lines o order ((Function.update_of_ne ho _ _).symm.trans horder)
  · by_cases ho : o = info.order.id
    · subst ho
      rw [Market.State.phase_some (Function.update_self _ _ m.order)]
      exact hph
    · simpa [Market.State.phase, ho] using h.stays ht hj (hothers o ho)

end Turns

section Orders

variable {s t : Store} {m : Market.State} {info : CreateOrderInfo} {order : Market.Order}

theorem Shows.units (h : Shows s m) (hs : Matching s.db) (hr : Recorded info s.db)
    (horder : m.order info.order.id = some order) (p : ℕ) : order.units p = ordered info p := by
  have hunits : order.units p = quantity s.db p info.order.id := by
    rw [Market.Order.units, h.lines _ _ horder, quantity, StockLocking.quantityOf, List.filter_map,
      List.map_map, List.filter_map, List.map_map]
    rfl
  rw [hunits, quantity_recorded hs hr]

theorem Shows.total (h : Shows s m) (hs : Matching s.db) (hr : Recorded info s.db)
    (horder : m.order info.order.id = some order) : order.total = info.totalAmount := by
  rw [Market.Order.total, h.lines _ _ horder, List.map_map, totalAmount_eq hs hr]
  rfl

theorem Shows.owner (h : Shows s m) (hs : Matching s.db) (hr : Recorded info s.db)
    (horder : m.order info.order.id = some order) : order.userId = info.order.userId := by
  have huser := h.user info.order.id
  rw [horder, hs.user info hr] at huser
  exact Option.some.inj huser

theorem Shows.covered {a : Unit} (h : Shows s m) (hs : Matching s.db) (hd : Distinct s.db)
    (hr : Recorded info s.db) (horder : m.order info.order.id = some order)
    (hrun : Effect.Runs Store.exec
      (ProductService.deductStock (ProductFacade.deductStockCommand info)) s (.success a) t) :
    order.Covered m.goods.stock := by
  intro line hline n hn
  have hnodup := distinct_recorded hs hd hr
  have hitem : line.productId ∈ info.orderItems.map (·.productId) := by
    rw [h.lines _ _ horder] at hline
    obtain ⟨item, hitem, rfl⟩ := List.mem_map.mp hline
    exact List.mem_map.mpr ⟨_, (hs.items info hr).mem_iff.mpr (List.mem_map_of_mem hitem), rfl⟩
  obtain ⟨q, hq⟩ : ∃ q, (ProductFacade.deductStockCommand info).quantity line.productId = some q := by
    rw [command_quantity hnodup]
    obtain ⟨item, hmem, hid⟩ := List.mem_map.mp hitem
    cases hfind : info.orderItems.find? (fun item => item.productId = line.productId) with
    | none => simpa [hid] using List.find?_eq_none.mp hfind item hmem
    | some found => exact ⟨found.quantity, rfl⟩
  have htaken := Reversal.taken_ordered hnodup line.productId
  rw [hq] at htaken
  rw [h.units hs hr horder, ← htaken]
  rw [h.stock] at hn
  exact deduction_enough hrun hn hq

end Orders

section Commits

variable {s t : Store} {m : Market.State} {info : CreateOrderInfo}

theorem journal_created {u : Store} {key : OutboxKey} {payload : Json} {status : OutboxEventStatus}
    {row : OutboxEventRow} {kind : TransactionKind} (hj : u.journal = s.journal)
    (hrow : Store.exec (.createOutboxEvent key payload status) u (some row) t) :
    (committed kind t).journal = s.journal ++ [.created key status, .committed kind] := by
  obtain ⟨_, rfl⟩ := hrow
  simp [committed, Store.after, Query.events, hj]

theorem sameGoods_committed {kind : TransactionKind} (h : SameGoods s t) :
    SameGoods s (committed kind t) := ⟨h.productStock, h.wallet, h.point⟩

theorem placed_committed {kind : TransactionKind} {userId : ℕ} {commands : List CreateOrderItemCommand}
    (h : Placed userId commands info s t) : Placed userId commands info s (committed kind t) :=
  ⟨h.new, h.owner, h.user, h.orderItem, h.payload, h.orderItems⟩

theorem Shows.deduct {a : Unit} (h : Shows s m) (hs : Matching s.db) (hd : Distinct s.db)
    (hr : Recorded info s.db) (ht : Lives (committed (.deductStock info.order.id) t))
    (hrun : Effect.Runs Store.exec (ProductFacade.deducting info) s (.success a) t) :
    ∃ m', m.act info.order.id .deduct = some m' ∧
      Shows (committed (.deductStock info.order.id) t) m' := by
  obtain ⟨u, _, hdeduct, hemit⟩ := Effect.runs_tap_success.mp hrun
  obtain ⟨row, hrow⟩ := runs_createOutboxEvent hemit
  have hsaga : SameSaga s u :=
    Confined.sameSaga ((deductStock_confined _).mono (fun _ => .inl) (fun _ h => h)) hdeduct
  have hdata := confined_sameData (deductStock_confined _) (fun _ => onStock_inserts) hdeduct
  obtain ⟨hwallet, _⟩ := runs_onStock (deductStock_confined _) hdeduct
  have hgoods := createOutboxEvent_sameGoods hrow
  have horders : SameOrders s.db t.db := .create hdata hrow
  have hlife : life info.order.id [.created (aggregateId info.order.id, .orderDeductStock) .init,
      .committed (.deductStock info.order.id)] = [Deed.deduct.event] := by
    simp [life, lifeEvent, Deed.event]
  refine h.turn ht (journal_created hsaga.journal hrow) hlife
    (fun o' ho => by simp [life, lifeEvent, Ne.symm ho]) (by decide) horders (fun order horder => ?_)
  refine ⟨_, if_pos (h.covered hs hd hr horder hdeduct), funext (fun p => ?_), fun id => ?_⟩
  · have hstock := (congrFun hgoods.productStock p).trans (deduction_stock hdeduct p)
    rw [Reversal.taken_ordered (distinct_recorded hs hd hr), ← h.units hs hr horder, ← h.stock] at hstock
    exact hstock.symm
  · have hsame : (committed (.deductStock info.order.id) t).db.wallet = s.db.wallet :=
      hgoods.wallet.trans hwallet
    rw [hsame]
    exact h.wallet id

theorem Shows.restore {a : Unit} (h : Shows s m) (hs : Matching s.db) (hd : Distinct s.db)
    (hr : Recorded info s.db) (ht : Lives (committed (.restoreStock info.order.id) t))
    (hrun : Effect.Runs Store.exec (restoring info) s (.success a) t) :
    ∃ m', m.act info.order.id .restore = some m' ∧
      Shows (committed (.restoreStock info.order.id) t) m' := by
  have hdata := confined_sameData (restoring_confined _) (fun _ => onStock_inserts) hrun
  have hj : (committed (.restoreStock info.order.id) t).journal =
      s.journal ++ [.committed (.restoreStock info.order.id)] := by
    rw [committed, (runs_restoring hrun).journal]
  obtain ⟨hwallet, _⟩ := runs_onStock (restoring_confined _) hrun
  have hlife : life info.order.id [.committed (.restoreStock info.order.id)] = [Deed.restore.event] := by
    simp [life, lifeEvent, Deed.event]
  refine h.turn ht hj hlife (fun o' ho => by simp [life, lifeEvent, Ne.symm ho]) (by decide)
    (.of_data hdata) (fun order horder => ⟨_, rfl, funext (fun p => ?_), fun id => ?_⟩)
  · have hnodup := distinct_recorded hs hd hr
    have hstock := restoration_stock hrun p
    rw [← StockLocking.restored_quantity p hnodup, ← ordered, ← h.units hs hr horder, ← h.stock] at hstock
    exact hstock.symm
  · have hsame : (committed (.restoreStock info.order.id) t).db.wallet = s.db.wallet := hwallet
    rw [hsame]
    exact h.wallet id

theorem Shows.debit {wallet : WalletModel} (h : Shows s m) (hs : Matching s.db)
    (hr : Recorded info s.db) (ht : Lives (committed (.payment info.order.id) t))
    (hrun : Effect.Runs Store.exec (PrismaService.effectWithTransaction (UserFacade.paying info)) s
      (.success wallet) t) :
    ∃ m', m.act info.order.id (.debit wallet.id) = some m' ∧
      Shows (committed (.payment info.order.id) t) m' := by
  obtain ⟨u, _, hpay, hemit⟩ := Effect.runs_tap_success.mp (runs_effectWithTransaction.mp hrun)
  obtain ⟨event, hevent⟩ := runs_createOutboxEvent hemit
  have hsaga : SameSaga s u :=
    Confined.sameSaga ((completePayment_confined _ _).mono (fun _ => .inr) (fun _ h => h)) hpay
  have hdata := confined_sameData (completePayment_confined _ _) (fun _ => onWallet_inserts) hpay
  have hgoods := createOutboxEvent_sameGoods hevent
  have hstock : t.db.productStock = s.db.productStock :=
    hgoods.productStock.trans (runs_onWallet (completePayment_confined _ _) hpay)
  have horders : SameOrders s.db t.db := .create hdata hevent
  have hbody : Effect.Runs Store.exec (WalletLedger.WalletJob.processOrderPayment info).body s
      (.success wallet.id) t := Effect.runs_map_success.mpr ⟨wallet, hrun, rfl⟩
  obtain ⟨row, hrow, huser, ⟨old, hold, _, hwallet⟩, _, hcovered⟩ := WalletLedger.job_booked hbody
  cases hold.symm.trans hrow
  have hlife : life info.order.id [.created (aggregateId info.order.id, .orderPayment) .init,
      .committed (.payment info.order.id)] = [(Deed.debit wallet.id).event] := by
    simp [life, lifeEvent, Deed.event]
  refine h.turn ht (journal_created hsaga.journal hevent) hlife
    (fun o' ho => by simp [life, lifeEvent, Ne.symm ho]) (by simp [Deed.event]) horders
    (fun order horder => ?_)
  have howner : row.userId = order.userId := huser.trans (h.owner hs hr horder).symm
  have htotal : order.total = info.totalAmount := h.total hs hr horder
  have hle : order.total ≤ row.totalPoint := by
    have hnonneg : 0 ≤ row.totalPoint + -info.totalAmount := hcovered.resolve_left (by simp)
    linarith only [hnonneg, htotal]
  have hpurse : m.goods.wallet wallet.id = some (row.userId, row.totalPoint) := by
    rw [h.wallet, hrow]
    rfl
  let goods : Goods := { m.goods with
    wallet := Function.update m.goods.wallet wallet.id (some (row.userId, row.totalPoint - order.total)) }
  refine ⟨goods, ?_, h.stock.trans hstock.symm, fun id => ?_⟩
  · rw [Deed.move, hpurse, Option.bind_some, if_pos ⟨howner, hle⟩]
  · show goods.wallet id = (t.db.wallet id).map balance
    rw [hwallet]
    by_cases hid : id = wallet.id
    · subst hid
      simp [goods, htotal, balance, WalletLedger.WalletJob.amount, sub_eq_add_neg]
    · rw [Function.update_of_ne hid, ← h.wallet]
      exact Function.update_of_ne hid _ _

end Commits

section Steps

variable {s t : Store} {m : Market.State} {job : Job}

/-- The market goes on to stand as the tables do. -/
def Follows (m : Market.State) (t : Store) : Prop :=
  ∃ turns m', Monitor.run Market.State.step m turns = some m' ∧ Shows t m'

theorem Follows.idle (h : Shows t m) : Follows m t := ⟨[], m, rfl, h⟩

theorem Follows.once {o : ℕ} {deed : Deed} (h : ∃ m', m.act o deed = some m' ∧ Shows t m') :
    Follows m t := by
  obtain ⟨m', hact, hshows⟩ := h
  refine ⟨[(o, deed)], m', ?_, hshows⟩
  simp [Monitor.run, Market.State.step, hact]

theorem Shows.updated {key : OutboxKey} {status : OutboxEventStatus} {row : OutboxEventRow}
    (h : Shows s m) (ht : Lives t)
    (hexec : Store.exec (.updateOutboxEvent key status) s (some row) t) : Shows t m := by
  have hdata : SameData s.db t.db := exec_sameData id hexec
  have hgoods : SameGoods s t := exec_sameGoods id id hexec
  obtain ⟨⟨old, hold, _⟩, rfl⟩ := hexec
  refine h.same ht (Store.after_update hold) (fun o => ?_) hgoods (.of_data hdata)
  simp [life, lifeEvent]

theorem Shows.noted {o : ℕ} {ty : OutboxEventType} {payload : Json} {status : OutboxEventStatus}
    {row : OutboxEventRow} (h : Shows s m) (deed : Deed) (ht : Lives t)
    (hexec : Store.exec (.createOutboxEvent (aggregateId o, ty) payload status) s (some row) t)
    (hw : life o [.created (aggregateId o, ty) status] = [deed.event]) (hplace : deed.event ≠ .place)
    (hidle : ∀ order, deed.move order m.goods = some m.goods) :
    ∃ m', m.act o deed = some m' ∧ Shows t m' := by
  have hj : t.journal = s.journal ++ [.created (aggregateId o, ty) status] := by
    rw [hexec.2]
    rfl
  exact h.event ht hj hw (fun o' ho => by simp [life, lifeEvent, Ne.symm ho]) hplace
    (.create (.refl _) hexec) (createOutboxEvent_sameGoods hexec) hidle

theorem Shows.statement {q : Query} {v : q.Answer} (h : Shows s m) (hmakes : Makes job (.statement q))
    (ht : Lives t) (hexec : Store.exec q s (some v) t) : Follows m t := by
  cases hmakes with
  | @outOfStock message info _ _ =>
    exact .once (h.noted .reject ht hexec (by simp [life, lifeEvent, Deed.event]) (by decide)
      (fun _ => rfl))
  | findOrderCreated _ _ =>
    obtain ⟨_, rfl⟩ := hexec
    rw [Store.after_read (by rfl) (by rfl)]
    exact .idle h
  | setInit _ _ => exact .idle (h.updated ht hexec)
  | @paymentFailed message info _ _ =>
    exact .once (h.noted .refuse ht hexec (by simp [life, lifeEvent, Deed.event]) (by decide)
      (fun _ => rfl))
  | success => exact .idle (h.updated ht hexec)
  | @failOrder e info _ _ =>
    have hj : t.journal = s.journal ++ [.orderSet info.order.id .failed] := by
      rw [hexec.2]
      rfl
    have hlife : life info.order.id [.orderSet info.order.id .failed] = [Deed.cancel.event] := by
      simp [life, lifeEvent, Deed.event]
    exact .once (h.event ht hj hlife (fun o' ho => by simp [life, lifeEvent, Ne.symm ho])
      (by decide) (.of_data (exec_sameData id hexec)) (exec_sameGoods id id hexec) (fun _ => rfl))
  | failed => exact .idle (h.updated ht hexec)

/-- A transaction of the saga is one deed. -/
theorem Shows.commit {kind : TransactionKind} {A : Type} {body : Statements A} {a : A}
    (h : Shows s m) (hmakes : Makes job (.transaction kind A body)) (hs : Matching s.db)
    (hd : Distinct s.db) (hk : Recalls job s.db) (ht : Lives (committed kind t))
    (hr : Effect.Runs Store.exec body s (.success a) t) : Follows m (committed kind t) := by
  cases hmakes with
  | order =>
    have hrun := runs_effectWithTransaction.mp hr
    obtain ⟨u, row, _, _, _, hj, hrow⟩ := runs_ordering hrun
    exact .once (h.place hs ht (journal_created hj hrow) (by simp [life, lifeEvent])
      (fun o' ho => by simp [life, lifeEvent, Ne.symm ho]) (placed_committed (runs_placed hrun))
      (sameGoods_committed (ordering_sameGoods hrun)))
  | @deductStock message info _ hinfo =>
    exact .once (h.deduct hs hd (hk info hinfo) ht (runs_effectWithTransaction.mp hr))
  | @payment message info _ hinfo => exact .once (h.debit hs (hk info hinfo) ht hr)
  | @orderSuccess message info _ _ =>
    obtain ⟨u, order, row, hset, hrow⟩ := runs_succeeding (runs_effectWithTransaction.mp hr)
    have hdata : SameData s.db u.db := exec_sameData id hset
    have hgoods : SameGoods s t :=
      (exec_sameGoods id id hset).trans (createOutboxEvent_sameGoods hrow)
    have horders : SameOrders s.db t.db := .create hdata hrow
    have hj : (committed (.orderSuccess info.order.id) t).journal = s.journal ++
        [.orderSet info.order.id .paid, .created (aggregateId info.order.id, .orderSuccess) .init,
          .committed (.orderSuccess info.order.id)] := by
      obtain ⟨_, rfl⟩ := hset
      obtain ⟨_, rfl⟩ := hrow
      simp [committed, Store.after, Query.events]
    have hlife : life info.order.id [.orderSet info.order.id .paid,
        .created (aggregateId info.order.id, .orderSuccess) .init,
        .committed (.orderSuccess info.order.id)] = [Deed.pay.event] := by
      simp [life, lifeEvent, Deed.event]
    exact .once (h.event ht hj hlife (fun o' ho => by simp [life, lifeEvent, Ne.symm ho])
      (by decide) horders (sameGoods_committed hgoods) (fun _ => rfl))
  | @restore e info _ hpayload =>
    obtain ⟨info', hpayload', hrecorded⟩ := hk
    obtain rfl := hpayload.unique hpayload'
    exact .once (h.restore hs hd hrecorded ht (runs_effectWithTransaction.mp hr))

end Steps

section Runs

variable {m : Market.State} {c c' : Configuration} {l : Action}

theorem distinct_step (hs : Step saga c l c') (h : Distinct c.shared.store.db) :
    Distinct c'.shared.store.db := by
  refine step_shared (R := fun w w' => Distinct w.store.db → Distinct w'.store.db)
    (fun w w' hstore _ => ?_) (fun q w r w' hexec => ?_) hs h
  · rw [hstore]
    exact id
  · cases World.exec_change hexec with
    | same => exact id
    | statement hq => exact exec_distinct hq
    | @commit _ _ _ _ _ t hr =>
      have hkept : Distinct w.store.db → Distinct t.db := runs_distinct hr
      exact hkept
    | publish => exact id

/-- A step of the saga is one deed at most. -/
theorem Shows.step (h : Shows c.shared.store m) (hc : Steady c) (hd : Distinct c.shared.store.db)
    (ht : Lives c'.shared.store) (hs : Step saga c l c') : Follows m c'.shared.store := by
  have hmade := fun {i q r} (hcall : l = .call i q r) => hc.made (hcall ▸ hs)
  cases hs with
  | env henv =>
    obtain ⟨_, hstore⟩ := hc.faithful.poll henv
    exact .idle (hstore ▸ h)
  | start _ hstart =>
    obtain ⟨_, hstore, _⟩ := start_recalls hc.faithful hstart
    exact .idle (hstore ▸ h)
  | call hi hexec =>
    obtain ⟨job, hmakes, hk⟩ := hmade rfl
    cases World.exec_change hexec with
    | same => exact .idle h
    | statement hq => exact h.statement hmakes ht hq
    | commit hr => exact h.commit hmakes hc.faithful.rows hd hk ht hr
    | publish =>
      exact .idle (h.same ht rfl (fun o => by simp [life, lifeEvent]) ⟨rfl, rfl, rfl⟩ ⟨rfl, rfl⟩)
  | stop => exact .idle h

theorem shows_opening {w : World} (hw : Initial w) : Shows w.store (opening w.store.db) where
  stock := rfl
  wallet _ := rfl
  user o := by
    rw [userOf, hw.order]
    rfl
  lines o order horder := nomatch horder
  stage o := by
    obtain ⟨ph, hph⟩ := (Consistent.initial hw).lives.stage o
    have hnone : ph.orderStatus = none := by
      rw [← hph.status, hw.order]
      rfl
    obtain rfl := absent_of hnone
    exact hph

structure Sound (c : Configuration) : Prop where
  reachable : Reachable anyStep c
  steady : Steady c
  distinct : Distinct c.shared.store.db

theorem Sound.initial {w : World} (hw : Initial w) : Sound (quiet w) :=
  ⟨⟨w, hw, .refl⟩, .initial hw, by simp [Distinct, quiet, hw.orderItem]⟩

theorem Sound.step (h : Sound c) (hs : Step saga c l c') : Sound c' :=
  ⟨SagaOutcomes.Reachable.extend h.reachable (.single ⟨l, hs, trivial⟩), h.steady.step hs,
    distinct_step hs h.distinct⟩

theorem Sound.follows (hc : Sound c) (h : Shows c.shared.store m) (hr : Reaches saga anyStep c c') :
    Sound c' ∧ Follows m c'.shared.store := by
  have hstep : ∀ c₁ c₂ m₁, (∃ l, Step saga c₁ l c₂ ∧ anyStep c₁ l) →
      Sound c₁ ∧ Shows c₁.shared.store m₁ → ∃ turns m₂,
        Monitor.run Market.State.step m₁ turns = some m₂ ∧ Sound c₂ ∧ Shows c₂.shared.store m₂ := by
    rintro c₁ c₂ m₁ ⟨l, hs, _⟩ ⟨hsound, hshows⟩
    have hsound' := hsound.step hs
    obtain ⟨turns, m₂, hrun, hshows'⟩ := hshows.step hsound.steady hsound.distinct
      (reachable_consistent hsound'.reachable).lives hs
    exact ⟨turns, m₂, hrun, hsound', hshows'⟩
  obtain ⟨turns, m', hrun, hsound, hshows⟩ := Monitor.follows hstep hr ⟨hc, h⟩
  exact ⟨hsound, turns, m', hrun, hshows⟩

/-- The saga is the market. Whatever is interleaved, retried, delivered again, rejected or lost,
in every run the tables stand as after deeds of the market, one after the other, on the goods of
the start; and as the run goes on, so do the deeds. -/
theorem saga_refines {w : World} (hw : Initial w) (h : Reaches saga anyStep (quiet w) c)
    (h' : Reaches saga anyStep c c') : ∃ turns turns' m m',
    Monitor.run Market.State.step (opening w.store.db) turns = some m ∧ Shows c.shared.store m ∧
    Monitor.run Market.State.step m turns' = some m' ∧ Shows c'.shared.store m' := by
  obtain ⟨hc, turns, m, hrun, hm⟩ := (Sound.initial hw).follows (shows_opening hw) h
  obtain ⟨_, turns', m', hrun', hm'⟩ := hc.follows hm h'
  exact ⟨turns, turns', m, m', hrun, hm, hrun', hm'⟩

/-- The stock of the first order is taken in the market too. -/
theorem saga_refines_taken : ∃ turns m,
    Monitor.run Market.State.step (opening (SagaRuns.tea 10).opening.store.db) turns = some m ∧
    m.goods.stock 1 = some 7 ∧ .deducted ≤ m.phase 1 := by
  obtain ⟨w, hshows, _, _, hstaged⟩ :=
    SagaRuns.Purchase.staged_taken (SagaRuns.tea_covered 10)
  have hreach := hstaged _ SagaRuns.permits_anyStep
  obtain ⟨turns, _, m, _, hrun, hm, _⟩ := saga_refines (SagaRuns.tea 10).initial hreach .refl
  refine ⟨turns, m, hrun, (congrFun hm.stock 1).trans (congrFun hshows.stock 1),
    (SagaOutcomes.deducted_iff (hm.stage 1)).mp ?_⟩
  have hmem : .committed (.deductStock 1) ∈ w.store.journal := by
    rw [hshows.journal]
    exact List.mem_append_right _ List.mem_cons_self
  exact hmem

end Runs

section Sales

variable {c : Configuration}

def Requested (db : Tables) : Prop := ∀ item ∈ db.orderItem, 0 ≤ item.quantity

theorem Shows.positive {s : Store} {m : Market.State} (h : Shows s m) (hr : Requested s.db) {o : ℕ}
    {order : Market.Order} (horder : m.order o = some order) : order.Positive := by
  intro line hline
  rw [h.lines o order horder] at hline
  obtain ⟨item, hitem, rfl⟩ := List.mem_map.mp hline
  exact hr item (List.mem_of_mem_filter hitem)

theorem Requested.quantity {db : Tables} (h : Requested db) (p o : ℕ) : 0 ≤ quantity db p o := by
  refine List.sum_nonneg (fun n hn => ?_)
  obtain ⟨entry, hentry, rfl⟩ := List.mem_map.mp hn
  obtain ⟨item, hitem, rfl⟩ := List.mem_map.mp (List.mem_of_mem_filter hentry)
  exact h item (List.mem_of_mem_filter hitem)

theorem never_below_zero {w : World} (hw : Initial w) (h : Reaches saga anyStep (quiet w) c)
    (hgoods : Market.Solid (opening w.store.db).goods) (hr : Requested c.shared.store.db) :
    (∀ p n, c.shared.store.db.productStock p = some n → 0 ≤ n) ∧
    ∀ id row, c.shared.store.db.wallet id = some row → 0 ≤ row.totalPoint := by
  obtain ⟨_, turns, m, hrun, hm⟩ := (Sound.initial hw).follows (shows_opening hw) h
  have hsolid := Market.State.run_solid hrun hgoods (fun o order => hm.positive hr)
  refine ⟨fun p n hn => hsolid.stock p n ?_, fun id row hrow => hsolid.wallet id (balance row) ?_⟩
  · rw [hm.stock, hn]
  · rw [hm.wallet, hrow]
    rfl

/-- What the orders have paid for and what was given back was taken before. -/
theorem paid_and_restored (h : Reachable anyStep c)
    (honce : (restoredOrders c.shared.store).Nodup) :
    (paidOrders c.shared.store ++ restoredOrders c.shared.store).Subperm
      (deductedOrders c.shared.store) := by
  have hnodup : (paidOrders c.shared.store ++ restoredOrders c.shared.store).Nodup := by
    refine (paidOrders_nodup h).append honce (fun o hpaid hrestored => ?_)
    exact (paidOrders_deducted h hpaid).2 hrestored
  refine hnodup.subperm (fun o ho => ?_)
  obtain hpaid | hrestored := List.mem_append.mp ho
  · exact (paidOrders_deducted h hpaid).1
  · exact restoredOrders_deducted h hrestored

theorem units_le {s : Store} (hr : Requested s.db) {p : ℕ} {orders orders' : List ℕ}
    (h : orders.Subperm orders') : units s p orders ≤ units s p orders' := by
  obtain ⟨l, hperm, hsub⟩ := h
  calc units s p orders = units s p l := ((hperm.symm).map _).sum_eq
    _ ≤ units s p orders' := (hsub.map _).sum_le_sum (fun n hn => by
      obtain ⟨o, _, rfl⟩ := List.mem_map.mp hn
      exact hr.quantity p o)

/-- Nobody is sold what is not there. In every run that starts with no stock and no wallet below
zero and takes no order for a negative quantity: a user's paid orders never cost more than what was
in the wallet; of a product, no more is ever out than the stock at the start and what was given
back; and as long as no order is given back twice, the paid orders ask for no more of a product than
its stock at the start. -/
theorem never_oversold {w : World} (hw : Initial w) (hone : OneWallet w.store.db)
    (h : Reaches saga anyStep (quiet w) c)
    (hstock : ∀ p n, w.store.db.productStock p = some n → 0 ≤ n)
    (hwallet : ∀ id row, w.store.db.wallet id = some row → 0 ≤ row.totalPoint)
    (hr : Requested c.shared.store.db) :
    (∀ id row₀, w.store.db.wallet id = some row₀ →
      spent c.shared.store row₀.userId ≤ row₀.totalPoint) ∧
    (∀ p n₀, w.store.db.productStock p = some n₀ → units c.shared.store p (deductedOrders c.shared.store) ≤
      n₀ + units c.shared.store p (restoredOrders c.shared.store)) ∧
    ((restoredOrders c.shared.store).Nodup → ∀ p n₀, w.store.db.productStock p = some n₀ →
      units c.shared.store p (paidOrders c.shared.store) ≤ n₀) := by
  have hgoods : Market.Solid (opening w.store.db).goods := by
    refine ⟨hstock, fun id wallet hid => ?_⟩
    obtain ⟨row, hrow, rfl⟩ := Option.map_eq_some_iff.mp hid
    exact hwallet id row hrow
  obtain ⟨hleft, hpurse⟩ := never_below_zero hw h hgoods hr
  have hbooks := reaches_books hw hone h
  have htaken : ∀ p n₀, w.store.db.productStock p = some n₀ →
      units c.shared.store p (deductedOrders c.shared.store) ≤
        n₀ + units c.shared.store p (restoredOrders c.shared.store) := by
    intro p n₀ hn₀
    have hn := hbooks.stock_left p
    rw [hn₀] at hn
    have hnonneg : 0 ≤ n₀ - units c.shared.store p (deductedOrders c.shared.store) +
        units c.shared.store p (restoredOrders c.shared.store) := hleft p _ hn
    omega
  refine ⟨fun id row₀ hrow₀ => ?_, htaken, fun honce p n₀ hn₀ => ?_⟩
  · obtain ⟨row, hrow, _, htotal, _⟩ := hbooks.wallet_left hrow₀
    have hnonneg := hpurse id row hrow
    linarith only [hnonneg, htotal]
  · have hsub := units_le hr (p := p) (paid_and_restored ⟨w, hw, h⟩ honce)
    have hadd : units c.shared.store p (paidOrders c.shared.store ++ restoredOrders c.shared.store) =
        units c.shared.store p (paidOrders c.shared.store) +
          units c.shared.store p (restoredOrders c.shared.store) := by
      simp [units]
    have hle := htaken p n₀ hn₀
    omega

theorem never_oversold_paid : ∃ w, Reaches saga anyStep (quiet (SagaRuns.tea 10).opening) (quiet w) ∧
    paidOrders w.store = [1] ∧ units w.store 1 [1] ≤ 10 ∧ spent w.store 7 ≤ 10 := by
  have hpaid := (SagaRuns.Purchase.staged_offered (SagaRuns.tea_covered 10)).pay
    (List.mem_cons_of_mem _ List.mem_cons_self) SagaRuns.tea_enough rfl
  obtain ⟨w, hshows, _, _, hstaged⟩ := hpaid
  have hreach := hstaged _ SagaRuns.permits_anyStep
  have hpaid : paidOrders w.store = [1] := by
    rw [paidOrders, hshows.journal]
    rfl
  have hrestored : restoredOrders w.store = [] := by
    rw [restoredOrders, hshows.journal]
    rfl
  have hrequested : Requested w.store.db := by
    rw [Requested, hshows.items]
    intro item hitem
    obtain rfl := List.mem_singleton.mp hitem
    decide
  have hstock : ∀ p n, (SagaRuns.tea 10).opening.store.db.productStock p = some n → 0 ≤ n := by
    intro p n hn
    obtain ⟨_, hn⟩ := Option.ite_none_right_eq_some.mp hn
    cases hn
    decide
  have hwallet : ∀ id row, (SagaRuns.tea 10).opening.store.db.wallet id = some row → 0 ≤ row.totalPoint := by
    intro id row hrow
    obtain ⟨_, hrow⟩ := Option.ite_none_right_eq_some.mp hrow
    cases hrow
    norm_num [SagaRuns.tea]
  obtain ⟨hspent, _, hunits⟩ :=
    never_oversold (SagaRuns.tea 10).initial (opening_oneWallet _) hreach hstock hwallet hrequested
  have hsold := hunits (hrestored ▸ List.nodup_nil) 1 10 rfl
  exact ⟨w, hreach, hpaid, hpaid ▸ hsold, hspent 1 ⟨7, 0, 10⟩ rfl⟩

end Sales

end EcommerceService.SagaRefinement
