import EcommerceService.OrderData
import EcommerceService.Reversal
import EcommerceService.SagaOutcomes

namespace EcommerceService.SagaBooks

open EcommerceService.Effects EcommerceService.Errors EcommerceService.Models
open EcommerceService.Database EcommerceService.Repositories EcommerceService.Backend
open EcommerceService.Services EcommerceService.Facades EcommerceService.OutboxPolling
open EcommerceService.Pool EcommerceService.TransactionEffects EcommerceService.StockEffects
open EcommerceService.StockLocking (quantityOf restored_quantity)
open EcommerceService.Restoration (ordered)
open EcommerceService.Reversal (deducting_stock taken_ordered)
open EcommerceService.WalletLedger (amountOf amountOf_append)
open EcommerceService.OrderLife EcommerceService.Saga EcommerceService.SagaCalls
open EcommerceService.OrderData EcommerceService.SagaRuns

section Readings

def quantity (db : Tables) (p o : ℕ) : ℤ :=
  quantityOf p ((itemsOf db o).map (fun item => (item.productId, item.quantity)))

def stockMove (db : Tables) (p : ℕ) : Event → ℤ
  | .committed (.deductStock o) => -quantity db p o
  | .committed (.restoreStock o) => quantity db p o
  | _ => 0

def walletMove (db : Tables) (userId : ℕ) : Event → ℚ
  | .committed (.payment o) => if userOf db o = some userId then -orderSum db o else 0
  | _ => 0

def stockMoves (db : Tables) (p : ℕ) (journal : List Event) : ℤ := (journal.map (stockMove db p)).sum

def walletMoves (db : Tables) (userId : ℕ) (journal : List Event) : ℚ :=
  (journal.map (walletMove db userId)).sum

inductive Moves (o : ℕ) : Event → Prop
  | deduct : Moves o (.committed (.deductStock o))
  | restore : Moves o (.committed (.restoreStock o))
  | pay : Moves o (.committed (.payment o))

def Distinct (db : Tables) : Prop :=
  (db.orderItem.map (fun item => (item.orderId, item.productId))).Nodup

def OneWallet (db : Tables) : Prop := ∀ id id' row row', db.wallet id = some row →
  db.wallet id' = some row' → row.userId = row'.userId → id = id'

def balance (row : WalletRow) : ℕ × ℚ := (row.userId, row.totalPoint)

/-- The tables agree with what the journal says was moved since `db₀`. -/
structure Books (db₀ : Tables) (s : Store) : Prop where
  noted : ∀ e ∈ s.journal, ∀ o, Moves o e → ∃ info, info.order.id = o ∧ Recorded info s.db
  distinct : Distinct s.db
  stock : ∀ p, s.db.productStock p =
    (db₀.productStock p).map (fun n => n + stockMoves s.db p s.journal)
  wallet : ∀ id, (s.db.wallet id).map balance = (db₀.wallet id).map
    (fun row => (row.userId, row.totalPoint + walletMoves s.db row.userId s.journal))
  point : ∀ id row, db₀.wallet id = some row →
    amountOf id s.db.point = amountOf id db₀.point + walletMoves s.db row.userId s.journal

end Readings

section Moving

variable {db db' db₀ : Tables} {info : CreateOrderInfo} {s t : Store} {w : List Event} {p : ℕ}

theorem stockMoves_append (journal : List Event) :
    stockMoves db p (journal ++ w) = stockMoves db p journal + stockMoves db p w := by
  simp [stockMoves]

theorem walletMoves_append {userId : ℕ} (journal : List Event) :
    walletMoves db userId (journal ++ w) = walletMoves db userId journal + walletMoves db userId w := by
  simp [walletMoves]

theorem moves_or (e : Event) : (∃ o, Moves o e) ∨
    ∀ db, (∀ p, stockMove db p e = 0) ∧ ∀ userId, walletMove db userId e = 0 := by
  cases e with
  | committed kind =>
    cases kind with
    | deductStock o => exact .inl ⟨o, .deduct⟩
    | restoreStock o => exact .inl ⟨o, .restore⟩
    | payment o => exact .inl ⟨o, .pay⟩
    | _ => exact .inr (fun _ => ⟨fun _ => rfl, fun _ => rfl⟩)
  | _ => exact .inr (fun _ => ⟨fun _ => rfl, fun _ => rfl⟩)

theorem moves_none (db : Tables) (h : ∀ e ∈ w, ∀ o, ¬ Moves o e) :
    (∀ p, stockMoves db p w = 0) ∧ ∀ userId, walletMoves db userId w = 0 := by
  have hzero : ∀ e ∈ w, (∀ p, stockMove db p e = 0) ∧ ∀ userId, walletMove db userId e = 0 := by
    intro e he
    obtain ⟨o, ho⟩ | hnone := moves_or e
    · exact absurd ho (h e he o)
    · exact hnone db
  refine ⟨fun p => ?_, fun userId => ?_⟩
  · exact List.sum_eq_zero (fun n hn => by
      obtain ⟨e, he, rfl⟩ := List.mem_map.mp hn
      exact (hzero e he).1 p)
  · exact List.sum_eq_zero (fun n hn => by
      obtain ⟨e, he, rfl⟩ := List.mem_map.mp hn
      exact (hzero e he).2 userId)

theorem quantity_recorded (h : Matching db) (hr : Recorded info db) (p : ℕ) :
    quantity db p info.order.id = ordered info p := by
  have hperm : ((itemsOf db info.order.id).map (fun item => (item.productId, item.quantity))).Perm
      (info.orderItems.map (fun item => (item.productId, item.quantity))) := by
    have hitems := (h.items info hr).map (fun item => (item.productId, item.quantity))
    rw [List.map_map] at hitems
    exact hitems.symm
  exact ((hperm.filter _).map _).sum_eq

theorem distinct_recorded (h : Matching db) (hd : Distinct db) (hr : Recorded info db) :
    (info.orderItems.map (·.productId)).Nodup := by
  have hperm := (h.items info hr).map (·.productId)
  rw [List.map_map] at hperm
  refine hperm.nodup_iff.mpr ?_
  have hkeys : ((itemsOf db info.order.id).map (fun item => (item.orderId, item.productId))).Nodup :=
    hd.sublist (List.filter_sublist.map _)
  rw [List.nodup_map_iff_inj_on (hkeys.of_map _)]
  intro item hitem item' hitem' hp
  refine List.inj_on_of_nodup_map hkeys hitem hitem' ?_
  have ho : item.orderId = info.order.id := by simpa using (List.mem_filter.mp hitem).2
  have ho' : item'.orderId = info.order.id := by simpa using (List.mem_filter.mp hitem').2
  exact Prod.ext (ho.trans ho'.symm) hp

theorem move_stable (h : Matching db) (h' : Matching db') (hk : Keeps db db') {e : Event}
    (hnoted : ∀ o, Moves o e → ∃ info, info.order.id = o ∧ Recorded info db) :
    (∀ p, stockMove db' p e = stockMove db p e) ∧
      ∀ userId, walletMove db' userId e = walletMove db userId e := by
  obtain ⟨o, ho⟩ | hnone := moves_or e
  · obtain ⟨info, rfl, hr⟩ := hnoted o ho
    have hquantity : ∀ p, quantity db' p info.order.id = quantity db p info.order.id := by
      intro p
      rw [quantity_recorded h hr, quantity_recorded h' (hk info hr)]
    have huser : userOf db' info.order.id = userOf db info.order.id := by
      rw [h.user info hr, h'.user info (hk info hr)]
    have hsum : orderSum db' info.order.id = orderSum db info.order.id := by
      rw [← totalAmount_eq h hr, ← totalAmount_eq h' (hk info hr)]
    cases ho with
    | deduct => exact ⟨fun p => congrArg Neg.neg (hquantity p), fun _ => rfl⟩
    | restore => exact ⟨hquantity, fun _ => rfl⟩
    | pay =>
      refine ⟨fun _ => rfl, fun userId => ?_⟩
      rw [walletMove, walletMove, huser, hsum]
  · exact ⟨fun p => ((hnone db').1 p).trans ((hnone db).1 p).symm,
      fun userId => ((hnone db').2 userId).trans ((hnone db).2 userId).symm⟩

theorem Books.stable (h : Books db₀ s) (hm : Matching s.db) (hm' : Matching t.db)
    (hk : Keeps s.db t.db) : (∀ p, stockMoves t.db p s.journal = stockMoves s.db p s.journal) ∧
      ∀ userId, walletMoves t.db userId s.journal = walletMoves s.db userId s.journal := by
  have hsame := fun e he => move_stable hm hm' hk (h.noted e he)
  refine ⟨fun p => congrArg List.sum (List.map_congr_left (fun e he => (hsame e he).1 p)),
    fun userId => congrArg List.sum (List.map_congr_left (fun e he => (hsame e he).2 userId))⟩

structure Moved (s t : Store) (w : List Event) : Prop where
  journal : t.journal = s.journal ++ w
  stock : ∀ p, t.db.productStock p = (s.db.productStock p).map (fun n => n + stockMoves t.db p w)
  wallet : ∀ id, (t.db.wallet id).map balance = (s.db.wallet id).map
    (fun row => (row.userId, row.totalPoint + walletMoves t.db row.userId w))
  point : ∀ id row, s.db.wallet id = some row →
    amountOf id t.db.point = amountOf id s.db.point + walletMoves t.db row.userId w

theorem Books.moved (h : Books db₀ s) (hm : Matching s.db) (hm' : Matching t.db)
    (hk : Keeps s.db t.db) (hd : Distinct t.db) (hw : Moved s t w)
    (hnoted : ∀ e ∈ w, ∀ o, Moves o e → ∃ info, info.order.id = o ∧ Recorded info t.db) :
    Books db₀ t := by
  obtain ⟨hstock, hwallet⟩ := h.stable hm hm' hk
  refine ⟨fun e he o ho => ?_, hd, fun p => ?_, fun id => ?_, fun id row₀ hrow₀ => ?_⟩
  · rw [hw.journal] at he
    obtain he | he := List.mem_append.mp he
    · obtain ⟨info, hid, hr⟩ := h.noted e he o ho
      exact ⟨info, hid, hk info hr⟩
    · exact hnoted e he o ho
  · rw [hw.stock, h.stock, Option.map_map, hw.journal]
    refine congrArg (fun f => Option.map f _) (funext (fun n => ?_))
    rw [stockMoves_append, hstock, Function.comp_apply, add_assoc]
  · have hbefore := h.wallet id
    rw [hw.wallet]
    cases hrow : s.db.wallet id with
    | none =>
      rw [hrow] at hbefore
      rw [Option.map_eq_none_iff.mp hbefore.symm]
      rfl
    | some row =>
      rw [hrow] at hbefore
      obtain ⟨row₀, hrow₀, heq⟩ := Option.map_eq_some_iff.mp hbefore.symm
      obtain ⟨huser, htotal⟩ := Prod.mk.inj heq
      rw [hrow₀, Option.map_some, Option.map_some, hw.journal, walletMoves_append, hwallet, ← add_assoc,
        htotal, huser]
  · have hbefore := h.wallet id
    rw [hrow₀] at hbefore
    obtain ⟨row, hrow, heq⟩ := Option.map_eq_some_iff.mp hbefore
    obtain ⟨huser, _⟩ := Prod.mk.inj heq
    have huser' : row.userId = row₀.userId := huser
    rw [hw.point id row hrow, h.point id row₀ hrow₀, hw.journal, walletMoves_append, hwallet, huser',
      add_assoc]

end Moving

section Statements

variable {db₀ : Tables} {info : CreateOrderInfo} {s t : Store}

structure SameGoods (s t : Store) : Prop where
  productStock : t.db.productStock = s.db.productStock
  wallet : t.db.wallet = s.db.wallet
  point : t.db.point = s.db.point

theorem SameGoods.trans {u : Store} (h : SameGoods s t) (h' : SameGoods t u) : SameGoods s u :=
  ⟨h'.productStock.trans h.productStock, h'.wallet.trans h.wallet, h'.point.trans h.point⟩

theorem exec_sameGoods {q : Query} {r : Option q.Answer} (hstock : ¬ onStock q) (hwallet : ¬ onWallet q)
    (h : Store.exec q s r t) : SameGoods s t := by
  cases r with
  | none => exact h ▸ ⟨rfl, rfl, rfl⟩
  | some v =>
    obtain ⟨_, rfl⟩ := h
    cases q with
    | selectStocksForUpdate ids => exact absurd trivial hstock
    | updateManyStock p n => exact absurd trivial hstock
    | findUniqueOrThrowWallet u => exact absurd trivial hwallet
    | updateWallet id version n => exact absurd trivial hwallet
    | createPoint point => exact absurd trivial hwallet
    | _ => exact ⟨rfl, rfl, rfl⟩

theorem exec_onStock_wallet {q : Query} {r : Option q.Answer} (hq : onStock q)
    (h : Store.exec q s r t) : t.db.wallet = s.db.wallet ∧ t.db.point = s.db.point := by
  cases r with
  | none => exact h ▸ ⟨rfl, rfl⟩
  | some v =>
    obtain ⟨_, rfl⟩ := h
    cases q with
    | selectStocksForUpdate ids => exact ⟨rfl, rfl⟩
    | updateManyStock p n => exact ⟨rfl, rfl⟩
    | _ => exact hq.elim

theorem exec_onWallet_stock {q : Query} {r : Option q.Answer} (hq : onWallet q)
    (h : Store.exec q s r t) : t.db.productStock = s.db.productStock := by
  cases r with
  | none => exact h ▸ rfl
  | some v =>
    obtain ⟨_, rfl⟩ := h
    cases q with
    | findUniqueOrThrowWallet u => rfl
    | updateWallet id version n => rfl
    | createPoint point => rfl
    | _ => exact hq.elim

theorem runs_onStock {A : Type} {P : Error → Prop} {p : Statements A} {x : Exit Error A}
    (h : Effect.Confined Effect.anyAnswer onStock P p) (hr : Effect.Runs Store.exec p s x t) :
    t.db.wallet = s.db.wallet ∧ t.db.point = s.db.point := by
  refine (Effect.Confined.runs (F := fun u : Store => u.db.wallet = s.db.wallet ∧ u.db.point = s.db.point)
    h hr ⟨rfl, rfl⟩ (fun _ _ _ _ _ _ => trivial) (fun _ _ _ _ hq hexec hs => ?_)).2
  obtain ⟨hwallet, hpoint⟩ := exec_onStock_wallet hq hexec
  exact ⟨hwallet.trans hs.1, hpoint.trans hs.2⟩

theorem runs_onWallet {A : Type} {P : Error → Prop} {p : Statements A} {x : Exit Error A}
    (h : Effect.Confined Effect.anyAnswer onWallet P p) (hr : Effect.Runs Store.exec p s x t) :
    t.db.productStock = s.db.productStock :=
  (Effect.Confined.runs (F := fun u : Store => u.db.productStock = s.db.productStock)
    h hr rfl (fun _ _ _ _ _ _ => trivial)
    (fun _ _ _ _ hq hexec hs => (exec_onWallet_stock hq hexec).trans hs)).2

theorem exec_events {q : Query} {r : Option q.Answer} (h : Store.exec q s r t) :
    ∃ w, t.journal = s.journal ++ w ∧ ∀ e ∈ w, ∀ o, ¬ Moves o e := by
  cases r with
  | none => exact ⟨[], by rw [h, List.append_nil], by simp⟩
  | some v =>
    obtain ⟨_, rfl⟩ := h
    refine ⟨q.events s.db, rfl, fun e he o ho => ?_⟩
    cases q with
    | createOutboxEvent key payload status =>
      obtain rfl := List.mem_singleton.mp he
      cases ho
    | updateOutboxEvent key status =>
      obtain ⟨old, _, rfl⟩ : ∃ old, s.db.outboxEvent key = some old ∧
          Event.updated key old.status status = e := by simpa [Query.events] using he
      cases ho
    | updateOrder id status =>
      obtain rfl := List.mem_singleton.mp he
      cases ho
    | _ => cases he

theorem runs_events {A : Type} {p : Statements A} {x : Exit Error A}
    (h : Effect.Runs Store.exec p s x t) :
    ∃ w, t.journal = s.journal ++ w ∧ ∀ e ∈ w, ∀ o, ¬ Moves o e := by
  induction h with
  | succeed => exact ⟨[], (List.append_nil _).symm, by simp⟩
  | fail => exact ⟨[], (List.append_nil _).symm, by simp⟩
  | die => exact ⟨[], (List.append_nil _).symm, by simp⟩
  | perform hc _ ih =>
    obtain ⟨w, hj, hw⟩ := exec_events hc
    obtain ⟨w', hj', hw'⟩ := ih
    refine ⟨w ++ w', by rw [hj', hj, List.append_assoc], fun e he => ?_⟩
    exact (List.mem_append.mp he).elim (hw e) (hw' e)

theorem exec_distinct {q : Query} {r : Option q.Answer} (h : Store.exec q s r t)
    (hd : Distinct s.db) : Distinct t.db := by
  cases r with
  | none => exact h ▸ hd
  | some v =>
    obtain ⟨hallows, rfl⟩ := h
    cases q with
    | createManyOrderItems items =>
      obtain ⟨hnodup, hnew⟩ := hallows
      have hitems : (s.after (.createManyOrderItems items) v).db.orderItem = s.db.orderItem ++ items := rfl
      rw [Distinct, hitems, List.map_append]
      refine hd.append hnodup (fun key hkept hadded => ?_)
      obtain ⟨old, hold, rfl⟩ := List.mem_map.mp hkept
      obtain ⟨item, hitem, hkey⟩ := List.mem_map.mp hadded
      obtain ⟨ho, hp⟩ := Prod.mk.inj hkey
      exact hnew item hitem old hold ho.symm hp.symm
    | _ => exact hd

theorem runs_distinct {A : Type} {p : Statements A} {x : Exit Error A}
    (h : Effect.Runs Store.exec p s x t) (hd : Distinct s.db) : Distinct t.db := by
  induction h with
  | succeed => exact hd
  | fail => exact hd
  | die => exact hd
  | perform hc _ ih => exact ih (exec_distinct hc hd)

theorem Moved.same {w : List Event} (h : SameGoods s t) (hj : t.journal = s.journal ++ w)
    (hw : ∀ e ∈ w, ∀ o, ¬ Moves o e) : Moved s t w := by
  obtain ⟨hstock, hwallet⟩ := moves_none t.db hw
  refine ⟨hj, fun p => ?_, fun id => ?_, fun id row _ => ?_⟩
  · rw [h.productStock, hstock]
    simp
  · rw [h.wallet]
    simp only [hwallet, add_zero]
    rfl
  · rw [h.point, hwallet, add_zero]

end Statements

section Commits

variable {info : CreateOrderInfo} {s t : Store} {w : List Event} {kind : TransactionKind}

def committed (kind : TransactionKind) (t : Store) : Store :=
  { t with journal := t.journal ++ [.committed kind] }

theorem Moved.commit (hj : t.journal = s.journal ++ w) (hw : ∀ e ∈ w, ∀ o, ¬ Moves o e)
    (hstock : ∀ p, t.db.productStock p =
      (s.db.productStock p).map (fun n => n + stockMove t.db p (.committed kind)))
    (hwallet : ∀ id, (t.db.wallet id).map balance = (s.db.wallet id).map
      (fun row => (row.userId, row.totalPoint + walletMove t.db row.userId (.committed kind))))
    (hpoint : ∀ id row, s.db.wallet id = some row → amountOf id t.db.point =
      amountOf id s.db.point + walletMove t.db row.userId (.committed kind)) :
    Moved s (committed kind t) (w ++ [.committed kind]) := by
  obtain ⟨hstock₀, hwallet₀⟩ := moves_none t.db hw
  have hstocks : ∀ p, stockMoves t.db p (w ++ [.committed kind]) = stockMove t.db p (.committed kind) := by
    intro p
    rw [stockMoves_append, hstock₀, zero_add, stockMoves, List.map_singleton, List.sum_singleton]
  have hwallets : ∀ userId, walletMoves t.db userId (w ++ [.committed kind]) =
      walletMove t.db userId (.committed kind) := by
    intro userId
    rw [walletMoves_append, hwallet₀, zero_add, walletMoves, List.map_singleton, List.sum_singleton]
  refine ⟨by rw [committed, hj, List.append_assoc], fun p => ?_, fun id => ?_, fun id row hrow => ?_⟩
  · simpa only [committed, hstocks] using hstock p
  · simpa only [committed, hwallets] using hwallet id
  · simpa only [committed, hwallets] using hpoint id row hrow

theorem Moved.plain (h : SameGoods s t) (hj : t.journal = s.journal ++ w)
    (hw : ∀ e ∈ w, ∀ o, ¬ Moves o e) (hkind : ∀ o, ¬ Moves o (.committed kind)) :
    Moved s (committed kind t) (w ++ [.committed kind]) := by
  have hgoods : SameGoods s (committed kind t) := ⟨h.productStock, h.wallet, h.point⟩
  refine .same hgoods (by rw [committed, hj, List.append_assoc]) (fun e he => ?_)
  obtain he | he := List.mem_append.mp he
  · exact hw e he
  · exact List.mem_singleton.mp he ▸ hkind

theorem createOutboxEvent_sameGoods {key : OutboxKey} {payload : Json} {status : OutboxEventStatus}
    {row : OutboxEventRow} (h : Store.exec (.createOutboxEvent key payload status) s (some row) t) :
    SameGoods s t := exec_sameGoods id id h

theorem ordering_sameGoods {userId : ℕ} {items : List CreateOrderItemCommand}
    (h : Effect.Runs Store.exec
      ((OrderService.createOrder userId items).flatMap OrderFacade.createOutboxEvent) s
      (.success info) t) : SameGoods s t := by
  obtain ⟨_, u, hcreate, hemit⟩ := Effect.runs_flatMap_success.mp h
  obtain ⟨_, hrow, rfl⟩ := Effect.runs_map_success.mp hemit
  obtain ⟨row, hrow⟩ := runs_createOutboxEvent hrow
  obtain ⟨order, v, horder, hmodels⟩ := Effect.runs_flatMap_success.mp hcreate
  obtain ⟨models, hmany, rfl⟩ := Effect.runs_map_success.mp hmodels
  have hinsert : SameGoods s v := exec_sameGoods id id (runs_createOrder horder).2
  have hitems : SameGoods v u := exec_sameGoods id id (runs_createMany hmany).1
  exact (hinsert.trans hitems).trans (createOutboxEvent_sameGoods hrow)

theorem deducting_moved {a : Unit} (hd : Distinct s.db) (hs : Matching s.db) (hm : Matching t.db)
    (hr : Recorded info s.db) (hr' : Recorded info t.db)
    (h : Effect.Runs Store.exec (PrismaService.effectWithTransaction (ProductFacade.deducting info)) s
      (.success a) t) :
    ∃ w, Moved s (committed (.deductStock info.order.id) t) (w ++ [.committed (.deductStock info.order.id)]) ∧
      ∀ e ∈ w, ∀ o, ¬ Moves o e := by
  obtain ⟨w, hj, hw⟩ := runs_events h
  obtain ⟨u, _, hdeduct, hemit⟩ := Effect.runs_tap_success.mp (runs_effectWithTransaction.mp h)
  obtain ⟨row, hrow⟩ := runs_createOutboxEvent hemit
  obtain ⟨hwallet, hpoint⟩ := runs_onStock (deductStock_confined _) hdeduct
  have hgoods := createOutboxEvent_sameGoods hrow
  refine ⟨w, .commit hj hw (fun p => ?_) (fun id => ?_) (fun id row _ => ?_), hw⟩
  · rw [deducting_stock h, taken_ordered (distinct_recorded hs hd hr), stockMove, quantity_recorded hm hr']
    rfl
  · rw [hgoods.wallet, hwallet]
    simp only [walletMove, add_zero]
    rfl
  · rw [hgoods.point, hpoint]
    exact (add_zero _).symm

theorem restoring_moved {a : Unit} (hd : Distinct s.db) (hs : Matching s.db) (hm : Matching t.db)
    (hr : Recorded info s.db) (hr' : Recorded info t.db)
    (h : Effect.Runs Store.exec (PrismaService.effectWithTransaction (restoring info)) s (.success a) t) :
    ∃ w, Moved s (committed (.restoreStock info.order.id) t)
        (w ++ [.committed (.restoreStock info.order.id)]) ∧ ∀ e ∈ w, ∀ o, ¬ Moves o e := by
  obtain ⟨w, hj, hw⟩ := runs_events h
  have hrestore := runs_effectWithTransaction.mp h
  obtain ⟨hwallet, hpoint⟩ := runs_onStock (restoring_confined _) hrestore
  refine ⟨w, .commit hj hw (fun p => ?_) (fun id => ?_) (fun id row _ => ?_), hw⟩
  · rw [restoration_stock hrestore, stockMove, quantity_recorded hm hr', ordered,
      restored_quantity p (distinct_recorded hs hd hr)]
  · rw [hwallet]
    simp only [walletMove, add_zero]
    rfl
  · rw [hpoint]
    exact (add_zero _).symm

theorem paying_moved {wallet : WalletModel} (hone : OneWallet s.db) (hm : Matching t.db)
    (hr' : Recorded info t.db)
    (h : Effect.Runs Store.exec (PrismaService.effectWithTransaction (UserFacade.paying info)) s
      (.success wallet) t) :
    ∃ w, Moved s (committed (.payment info.order.id) t) (w ++ [.committed (.payment info.order.id)]) ∧
      ∀ e ∈ w, ∀ o, ¬ Moves o e := by
  obtain ⟨w, hj, hw⟩ := runs_events h
  obtain ⟨id, row, hrow, huser, hwallet, hpoint⟩ := paying_charged h
  obtain ⟨u, _, hpay, hemit⟩ := Effect.runs_tap_success.mp (runs_effectWithTransaction.mp h)
  obtain ⟨event, hevent⟩ := runs_createOutboxEvent hemit
  have hstock : t.db.productStock = s.db.productStock :=
    (createOutboxEvent_sameGoods hevent).productStock.trans (runs_onWallet (completePayment_confined _ _) hpay)
  have hmove : ∀ userId, walletMove t.db userId (.committed (.payment info.order.id)) =
      if info.order.userId = userId then -info.totalAmount else 0 := by
    intro userId
    rw [walletMove, hm.user info hr', totalAmount_eq hm hr']
    simp only [Option.some.injEq]
  refine ⟨w, .commit hj hw (fun p => ?_) (fun id' => ?_) (fun id' row' hrow' => ?_), hw⟩
  · rw [hstock]
    simp [stockMove]
  · simp only [hmove]
    by_cases hid : id' = id
    · subst hid
      rw [hwallet, Function.update_self, hrow, Option.map_some, Option.map_some, if_pos huser.symm,
        ← sub_eq_add_neg]
      rfl
    · rw [hwallet, Function.update_of_ne hid]
      cases hrow' : s.db.wallet id' with
      | none => rfl
      | some row' =>
        have hne : info.order.userId ≠ row'.userId :=
          fun he => hid (hone _ _ _ _ hrow' hrow (he.symm.trans huser.symm))
        rw [Option.map_some, Option.map_some, if_neg hne, add_zero]
        rfl
  · rw [hmove, hpoint, amountOf_append]
    by_cases hid : id = id'
    · subst hid
      cases hrow.symm.trans hrow'
      rw [if_pos rfl, if_pos huser.symm]
    · have hne : info.order.userId ≠ row'.userId :=
        fun he => hid (hone _ _ _ _ hrow hrow' (huser.trans he))
      rw [if_neg hid, if_neg hne]

end Commits

section Runs

variable {db₀ : Tables} {s t : Store} {job : Job}

theorem Books.initial {w : World} (h : Initial w) : Books w.store.db w.store := by
  have hstock : ∀ p, stockMoves w.store.db p w.store.journal = 0 := by simp [h.journal, stockMoves]
  have hwallet : ∀ u, walletMoves w.store.db u w.store.journal = 0 := by simp [h.journal, walletMoves]
  refine ⟨by simp [h.journal], by simp [Distinct, h.orderItem], fun p => ?_, fun id => ?_,
    fun id row _ => ?_⟩
  · simp [hstock]
  · simp only [hwallet, add_zero]
    rfl
  · rw [hwallet, add_zero]

theorem Books.oneWallet (h : Books db₀ s) (hone : OneWallet db₀) : OneWallet s.db := by
  intro id id' row row' hrow hrow' huser
  have hfirst := h.wallet id
  have hsecond := h.wallet id'
  rw [hrow] at hfirst
  rw [hrow'] at hsecond
  obtain ⟨row₀, hrow₀, heq⟩ := Option.map_eq_some_iff.mp hfirst.symm
  obtain ⟨row₀', hrow₀', heq'⟩ := Option.map_eq_some_iff.mp hsecond.symm
  have hid : row₀.userId = row.userId := congrArg Prod.fst heq
  have hid' : row₀'.userId = row'.userId := congrArg Prod.fst heq'
  exact hone id id' row₀ row₀' hrow₀ hrow₀' ((hid.trans huser).trans hid'.symm)

theorem makes_sameGoods {q : Query} {v : q.Answer} (h : Makes job (.statement q))
    (hexec : Store.exec q s (some v) t) : SameGoods s t := by
  cases h with
  | outOfStock _ _ => exact exec_sameGoods id id hexec
  | findOrderCreated _ _ => exact exec_sameGoods id id hexec
  | setInit _ _ => exact exec_sameGoods id id hexec
  | paymentFailed _ _ => exact exec_sameGoods id id hexec
  | success => exact exec_sameGoods id id hexec
  | failOrder _ _ => exact exec_sameGoods id id hexec
  | failed => exact exec_sameGoods id id hexec

/-- A transaction of the saga moves what its commit says. -/
theorem makes_moved {kind : TransactionKind} {A : Type} {body : Statements A} {a : A}
    (h : Makes job (.transaction kind A body)) (hs : Matching s.db) (hd : Distinct s.db)
    (hone : OneWallet s.db) (hk : Recalls job s.db)
    (hr : Effect.Runs Store.exec body s (.success a) t) :
    (∃ w, Moved s (committed kind t) (w ++ [.committed kind]) ∧ ∀ e ∈ w, ∀ o, ¬ Moves o e) ∧
      ∀ o, Moves o (.committed kind) → ∃ info, info.order.id = o ∧ Recorded info t.db := by
  have hm : Matching t.db := makes_commit h hs hk hr
  obtain ⟨w, hj, hw⟩ := runs_events hr
  cases h with
  | order =>
    refine ⟨⟨w, .plain (ordering_sameGoods (runs_effectWithTransaction.mp hr)) hj hw ?_, hw⟩, ?_⟩
    · rintro o ⟨⟩
    · rintro o ⟨⟩
  | @deductStock m info _ hinfo =>
    have hrecorded := hk info hinfo
    have hrecorded' := runs_recorded hr hrecorded
    refine ⟨deducting_moved hd hs hm hrecorded hrecorded' hr, ?_⟩
    rintro o ⟨⟩
    exact ⟨info, rfl, hrecorded'⟩
  | @payment m info _ hinfo =>
    have hrecorded' := runs_recorded hr (hk info hinfo)
    refine ⟨paying_moved hone hm hrecorded' hr, ?_⟩
    rintro o ⟨⟩
    exact ⟨info, rfl, hrecorded'⟩
  | orderSuccess _ _ =>
    obtain ⟨u, _, row, hset, hrow⟩ := runs_succeeding (runs_effectWithTransaction.mp hr)
    have hgoods : SameGoods s t := (exec_sameGoods id id hset).trans (createOutboxEvent_sameGoods hrow)
    refine ⟨⟨w, .plain hgoods hj hw ?_, hw⟩, ?_⟩
    · rintro o ⟨⟩
    · rintro o ⟨⟩
  | @restore e info _ hpayload =>
    obtain ⟨info', hpayload', hrecorded⟩ := hk
    obtain rfl := hpayload.unique hpayload'
    have hrecorded' := runs_recorded hr hrecorded
    refine ⟨restoring_moved hd hs hm hrecorded hrecorded' hr, ?_⟩
    rintro o ⟨⟩
    exact ⟨info, rfl, hrecorded'⟩

theorem Books.exec {c : Call} {r : c.Reply} {w w' : World} (h : Books db₀ w.store)
    (hone : OneWallet db₀) (hs : Matching w.store.db) (hs' : Matching w'.store.db)
    (hmade : Made c w) (hexec : World.exec c w r w') : Books db₀ w'.store := by
  obtain ⟨job, hmakes, hk⟩ := hmade
  have hkeeps := exec_keeps hexec
  cases World.exec_change hexec with
  | same => exact h
  | @statement q v _ t hq =>
    obtain ⟨events, hj, hquiet⟩ := exec_events hq
    exact h.moved hs hs' hkeeps (exec_distinct hq h.distinct)
      (.same (makes_sameGoods hmakes hq) hj hquiet) (fun e he o ho => absurd ho (hquiet e he o))
  | @commit kind A body a _ t hr =>
    obtain ⟨⟨events, hmoved, hquiet⟩, hnoted⟩ :=
      makes_moved hmakes hs h.distinct (h.oneWallet hone) hk hr
    have hdistinct : Distinct t.db := runs_distinct hr h.distinct
    refine h.moved hs hs' hkeeps hdistinct hmoved (fun e he o ho => ?_)
    obtain he | he := List.mem_append.mp he
    · exact absurd ho (hquiet e he o)
    · exact hnoted o (List.mem_singleton.mp he ▸ ho)
  | @publish eventType key value _ =>
    have hquiet : ∀ e ∈ [Event.published eventType key], ∀ o, ¬ Moves o e := by
      rintro e he o ho
      cases List.mem_singleton.mp he
      cases ho
    exact h.moved (t := (w.publish eventType key value).store) hs hs' hkeeps h.distinct
      (.same ⟨rfl, rfl, rfl⟩ rfl hquiet) (fun e he o ho => absurd ho (hquiet e he o))

theorem Books.step {c c' : Configuration} {l : Action} (h : Books db₀ c.shared.store)
    (hone : OneWallet db₀) (hc : Steady c) (hs : Step saga c l c') : Books db₀ c'.shared.store := by
  have hc' := hc.step hs
  have hmade := fun {i q r} (hcall : l = .call i q r) => hc.made (hcall ▸ hs)
  cases hs with
  | env henv =>
    obtain ⟨_, hstore⟩ := hc.faithful.poll henv
    exact hstore ▸ h
  | start _ hstart =>
    obtain ⟨_, hstore, _⟩ := start_recalls hc.faithful hstart
    exact hstore ▸ h
  | call hi hexec => exact h.exec hone hc.faithful.rows hc'.faithful.rows (hmade rfl) hexec
  | stop => exact h

end Runs

section Orders

def ordersOf (f : TransactionKind → Option ℕ) (journal : List Event) : List ℕ :=
  journal.filterMap (fun | .committed kind => f kind | _ => none)

def deductedOrder : TransactionKind → Option ℕ
  | .deductStock o => some o
  | _ => none

def restoredOrder : TransactionKind → Option ℕ
  | .restoreStock o => some o
  | _ => none

def paidOrder : TransactionKind → Option ℕ
  | .payment o => some o
  | _ => none

/-- The orders whose stock was taken, those whose stock was given back, each time it was, and
those that were paid. -/
def deductedOrders (s : Store) : List ℕ := ordersOf deductedOrder s.journal

def restoredOrders (s : Store) : List ℕ := ordersOf restoredOrder s.journal

def paidOrders (s : Store) : List ℕ := ordersOf paidOrder s.journal

def units (s : Store) (p : ℕ) (orders : List ℕ) : ℤ := (orders.map (quantity s.db p)).sum

def spent (s : Store) (userId : ℕ) : ℚ :=
  (((paidOrders s).filter (fun o => userOf s.db o = some userId)).map (orderSum s.db)).sum

variable {db : Tables} {o : ℕ} {f : TransactionKind → Option ℕ} {kind : ℕ → TransactionKind}

theorem ordersOf_cons (e : Event) (journal : List Event) :
    ordersOf f (e :: journal) = ordersOf f [e] ++ ordersOf f journal :=
  List.filterMap_append (l := [e])

theorem count_ordersOf (hf : ∀ k o, f k = some o ↔ k = kind o) (o : ℕ) (journal : List Event) :
    (ordersOf f journal).count o = journal.count (.committed (kind o)) := by
  rw [ordersOf, List.count_filterMap, List.count]
  refine List.countP_congr (fun e _ => ?_)
  cases e with
  | committed k => simp [hf]
  | _ => simp

theorem mem_ordersOf (hf : ∀ k o, f k = some o ↔ k = kind o) {journal : List Event} :
    o ∈ ordersOf f journal ↔ .committed (kind o) ∈ journal := by
  rw [← List.count_pos_iff, count_ordersOf hf, List.count_pos_iff]

theorem deductedOrder_iff (k : TransactionKind) (o : ℕ) : deductedOrder k = some o ↔ k = .deductStock o := by
  cases k <;> simp [deductedOrder]

theorem restoredOrder_iff (k : TransactionKind) (o : ℕ) :
    restoredOrder k = some o ↔ k = .restoreStock o := by
  cases k <;> simp [restoredOrder]

theorem paidOrder_iff (k : TransactionKind) (o : ℕ) : paidOrder k = some o ↔ k = .payment o := by
  cases k <;> simp [paidOrder]

theorem stockMoves_orders (p : ℕ) (journal : List Event) : stockMoves db p journal =
    ((ordersOf restoredOrder journal).map (quantity db p)).sum -
      ((ordersOf deductedOrder journal).map (quantity db p)).sum := by
  induction journal with
  | nil => rfl
  | cons e journal ih =>
    have hone : stockMove db p e = ((ordersOf restoredOrder [e]).map (quantity db p)).sum -
        ((ordersOf deductedOrder [e]).map (quantity db p)).sum := by
      cases e with
      | committed k => cases k <;> simp [stockMove, ordersOf, restoredOrder, deductedOrder]
      | _ => rfl
    have hcons : stockMoves db p (e :: journal) = stockMove db p e + stockMoves db p journal :=
      List.sum_cons
    rw [hcons, hone, ih, ordersOf_cons (f := restoredOrder) e journal,
      ordersOf_cons (f := deductedOrder) e journal,
      List.map_append, List.map_append, List.sum_append, List.sum_append]
    omega

theorem walletMoves_orders (userId : ℕ) (journal : List Event) : walletMoves db userId journal =
    -(((ordersOf paidOrder journal).filter (fun o => userOf db o = some userId)).map (orderSum db)).sum := by
  induction journal with
  | nil => simp [walletMoves, ordersOf]
  | cons e journal ih =>
    have hone : walletMove db userId e =
        -(((ordersOf paidOrder [e]).filter (fun o => userOf db o = some userId)).map (orderSum db)).sum := by
      cases e with
      | committed k =>
        cases k with
        | payment o =>
          have hsingle : ordersOf paidOrder [.committed (.payment o)] = [o] := rfl
          rw [walletMove, hsingle]
          split
          · rename_i huser
            simp [huser]
          · rename_i huser
            simp [huser]
        | _ => simp [walletMove, ordersOf, paidOrder]
      | _ => simp [walletMove, ordersOf]
    have hcons : walletMoves db userId (e :: journal) =
        walletMove db userId e + walletMoves db userId journal := List.sum_cons
    rw [hcons, hone, ih, ordersOf_cons e journal, List.filter_append, List.map_append, List.sum_append, neg_add]

end Orders

section Balance

theorem Books.stock_left {db₀ : Tables} {s : Store} (h : Books db₀ s) (p : ℕ) : s.db.productStock p =
    (db₀.productStock p).map (fun n => n - units s p (deductedOrders s) + units s p (restoredOrders s)) := by
  rw [h.stock, stockMoves_orders]
  refine congrArg (fun f => Option.map f _) (funext (fun n => ?_))
  simp only [units, deductedOrders, restoredOrders]
  omega

theorem Books.wallet_left {db₀ : Tables} {s : Store} (h : Books db₀ s) {id : ℕ} {row₀ : WalletRow}
    (hrow₀ : db₀.wallet id = some row₀) : ∃ row, s.db.wallet id = some row ∧
      row.userId = row₀.userId ∧ row.totalPoint = row₀.totalPoint - spent s row₀.userId ∧
      amountOf id s.db.point = amountOf id db₀.point - spent s row₀.userId := by
  have hbefore := h.wallet id
  have hpoint := h.point id row₀ hrow₀
  rw [hrow₀] at hbefore
  obtain ⟨row, hrow, heq⟩ := Option.map_eq_some_iff.mp hbefore
  obtain ⟨huser, htotal⟩ := Prod.mk.inj heq
  rw [walletMoves_orders, ← sub_eq_add_neg] at htotal hpoint
  exact ⟨row, hrow, huser, htotal, hpoint⟩

variable {c : Configuration}

theorem reaches_books {w : World} (hw : Initial w) (hone : OneWallet w.store.db)
    (h : Reaches saga anyStep (quiet w) c) : Books w.store.db c.shared.store := by
  have hsteady : Steady c ∧ Books w.store.db c.shared.store := by
    induction h with
    | refl => exact ⟨.initial hw, .initial hw⟩
    | tail _ hstep ih =>
      obtain ⟨l, hl, _⟩ := hstep
      exact ⟨ih.1.step hl, ih.2.step hone ih.1 hl⟩
  exact hsteady.2

theorem deductedOrders_nodup (h : Reachable anyStep c) : (deductedOrders c.shared.store).Nodup := by
  refine List.nodup_iff_count_le_one.mpr (fun o => ?_)
  obtain ⟨ph, hph⟩ := SagaOutcomes.stage h o
  rw [deductedOrders, count_ordersOf deductedOrder_iff,
    ← SagaOutcomes.count_life (fun _ => SagaOutcomes.lifeEvent_deduct)]
  exact deduct_gate.count_le_one hph.accepted

theorem paidOrders_nodup (h : Reachable anyStep c) : (paidOrders c.shared.store).Nodup := by
  refine List.nodup_iff_count_le_one.mpr (fun o => ?_)
  obtain ⟨ph, hph⟩ := SagaOutcomes.stage h o
  rw [paidOrders, count_ordersOf paidOrder_iff,
    ← SagaOutcomes.count_life (fun _ => SagaOutcomes.lifeEvent_debit)]
  exact debit_gate.count_le_one hph.accepted

theorem paidOrders_deducted (h : Reachable anyStep c) {o : ℕ} (ho : o ∈ paidOrders c.shared.store) :
    o ∈ deductedOrders c.shared.store ∧ o ∉ restoredOrders c.shared.store := by
  obtain ⟨ph, hph⟩ := SagaOutcomes.stage h o
  rw [paidOrders, mem_ordersOf paidOrder_iff, SagaOutcomes.debited_iff hph] at ho
  rw [deductedOrders, restoredOrders, mem_ordersOf deductedOrder_iff, mem_ordersOf restoredOrder_iff,
    SagaOutcomes.deducted_iff hph]
  exact ⟨le_trans (by decide) ho,
    fun hr => not_debited_and_unpaid ho (SagaOutcomes.restored_stage hph hr)⟩

theorem restoredOrders_deducted (h : Reachable anyStep c) {o : ℕ}
    (ho : o ∈ restoredOrders c.shared.store) : o ∈ deductedOrders c.shared.store := by
  obtain ⟨ph, hph⟩ := SagaOutcomes.stage h o
  rw [restoredOrders, mem_ordersOf restoredOrder_iff] at ho
  rw [deductedOrders, mem_ordersOf deductedOrder_iff, SagaOutcomes.deducted_iff hph]
  exact le_trans (by decide) (SagaOutcomes.restored_stage hph ho)

/-- In every run the stock of every product is what it was at the start, less what was ordered of
it by each order whose stock was taken, and more by what was given back; every wallet, and the sum
of its points, is down by the sums of the orders its user has paid. No order is taken from the
stock twice or paid twice, only orders whose stock was taken are paid or given back, and none is
both. -/
theorem saga_books {w : World} {c : Configuration} (hw : Initial w) (hone : OneWallet w.store.db)
    (h : Reaches saga anyStep (quiet w) c) :
    (∀ p, c.shared.store.db.productStock p = (w.store.db.productStock p).map (fun n =>
      n - units c.shared.store p (deductedOrders c.shared.store) +
        units c.shared.store p (restoredOrders c.shared.store))) ∧
    (∀ id row₀, w.store.db.wallet id = some row₀ → ∃ row, c.shared.store.db.wallet id = some row ∧
      row.userId = row₀.userId ∧ row.totalPoint = row₀.totalPoint - spent c.shared.store row₀.userId ∧
      amountOf id c.shared.store.db.point =
        amountOf id w.store.db.point - spent c.shared.store row₀.userId) ∧
    (deductedOrders c.shared.store).Nodup ∧ (paidOrders c.shared.store).Nodup ∧
    (∀ o ∈ paidOrders c.shared.store,
      o ∈ deductedOrders c.shared.store ∧ o ∉ restoredOrders c.shared.store) ∧
    ∀ o ∈ restoredOrders c.shared.store, o ∈ deductedOrders c.shared.store := by
  have hbooks := reaches_books hw hone h
  have hreach : Reachable anyStep c := ⟨w, hw, h⟩
  exact ⟨hbooks.stock_left, fun _ _ => hbooks.wallet_left, deductedOrders_nodup hreach,
    paidOrders_nodup hreach, fun _ => paidOrders_deducted hreach, fun _ => restoredOrders_deducted hreach⟩

theorem opening_oneWallet (b : Purchase) : OneWallet b.opening.store.db := by
  intro id id' row row' hrow hrow' _
  obtain ⟨rfl, _⟩ := Option.ite_none_right_eq_some.mp hrow
  obtain ⟨rfl, _⟩ := Option.ite_none_right_eq_some.mp hrow'
  rfl

theorem saga_books_taken : ∃ w, Reaches saga anyStep (quiet (tea 10).opening) (quiet w) ∧
    w.store.db.productStock 1 = some 7 ∧ deductedOrders w.store = [1] ∧ units w.store 1 [1] = 3 ∧
    spent w.store 7 = 0 := by
  obtain ⟨w, hshows, _, _, hstaged⟩ := Purchase.staged_taken (tea_covered 10)
  have hreach := hstaged _ permits_anyStep
  obtain ⟨hstock, hwallet, _⟩ := saga_books (tea 10).initial (opening_oneWallet _) hreach
  have hdeducted : deductedOrders w.store = [1] := by
    rw [deductedOrders, hshows.journal]
    rfl
  have hrestored : restoredOrders w.store = [] := by
    rw [restoredOrders, hshows.journal]
    rfl
  have hseven : w.store.db.productStock 1 = some 7 := congrFun hshows.stock 1
  have hbooked : w.store.db.productStock 1 = some (10 - units w.store 1 [1] + units w.store 1 []) := by
    rw [← hdeducted, ← hrestored]
    exact hstock 1
  have hunits : 10 - units w.store 1 [1] + 0 = 7 := Option.some.inj (hbooked.symm.trans hseven)
  obtain ⟨row, hrow, _, htotal, _⟩ := hwallet 1 ⟨7, 0, 10⟩ rfl
  cases hshows.wallet.symm.trans hrow
  have hten : (10 : ℚ) = 10 - spent w.store 7 := htotal
  exact ⟨w, hreach, hseven, hdeducted, by omega, by linarith only [hten]⟩

end Balance

end EcommerceService.SagaBooks
