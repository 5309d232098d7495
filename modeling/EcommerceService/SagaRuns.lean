import Mathlib.Tactic.NormNum
import EcommerceService.Saga
import EcommerceService.StockEffects

namespace EcommerceService.SagaRuns

open EcommerceService.Effects EcommerceService.Errors EcommerceService.Models
open EcommerceService.Database EcommerceService.Repositories EcommerceService.Backend
open EcommerceService.Services EcommerceService.Facades EcommerceService.OutboxPolling
open EcommerceService.TransactionEffects EcommerceService.StockEffects
open EcommerceService.Pool EcommerceService.Saga

/-- A call that goes well: no statement fails, and stock is given back for a row that
still says `FAIL`. -/
def Calm : (c : Call) → World → c.Reply → Prop
  | .statement _, _, r => r ≠ none
  | .transaction kind _ _, w, _ => ∀ o, kind = .restoreStock o →
      ∃ payload, w.store.db.outboxEvent (aggregateId o, .orderPayment) = some ⟨payload, .fail⟩
  | .emit _ _ _, _, _ => True

abbrev CalmRuns {E A : Type} (p : Effect Call Call.Reply E A) (w : World) (x : Exit E A) (t : World) :
    Prop := RunsBy Calm p w x t

/-- The condition allows what a single process does as long as its calls go well. -/
structure Permits (ok : Configuration → Action → Prop) : Prop where
  env : ∀ c, ok c .env
  start : ∀ c i job, ok c (.start i job)
  call : ∀ i job q k w r, Calm q w r →
    ok ⟨w, Function.update (fun _ => none) i (some (job, .perform q k))⟩ (.call i q r)
  stop : ∀ i job w p, (∀ q k, p ≠ .perform q k) →
    ok ⟨w, Function.update (fun _ => none) i (some (job, p))⟩ (.stop i)

theorem permits_anyStep : Permits anyStep :=
  ⟨fun _ => trivial, fun _ _ _ => trivial, fun _ _ _ _ _ _ _ => trivial, fun _ _ _ _ _ => trivial⟩

theorem waits_alone {w : World} {i i' : ℕ} {job : Job} {p : Service Unit} {q : Call}
    (h : Waits (⟨w, Function.update (fun _ => none) i (some (job, p))⟩ : Configuration) i' q) :
    ∃ k, p = .perform q k := by
  obtain ⟨_, k, hi⟩ := h
  have hpool : Function.update (fun _ => none) i (some (job, p)) i' = some (_, .perform q k) := hi
  obtain ⟨_, heq⟩ | ⟨_, hnone⟩ := pool_update hpool
  · exact ⟨k, (Prod.mk.inj (Option.some.inj heq)).2⟩
  · cases hnone

theorem solo_reaches {ok : Configuration → Action → Prop} {c₀ : Configuration} {w w₁ w₂ : World}
    {job : Job} {x : Exit Error Unit} (h : Reaches saga ok c₀ (quiet w)) (hok : Permits ok)
    (hs : job.start w w₁) (hr : CalmRuns job.program w₁ x w₂) : Reaches saga ok c₀ (quiet w₂) := by
  have hstart := h.start (i := 0) (j := job) rfl hs (hok.start _ _ _)
  have hend := Reaches.finish hr hstart (hok.call 0 job) (hok.stop 0 job)
  have hpool : Function.update (quiet w : Configuration).pool 0 none = fun _ => none :=
    Function.update_eq_self 0 _
  rw [hpool] at hend
  exact hend

def textOf (info : CreateOrderInfo) : Json := (Json.order info).stringify

def rowKey (info : CreateOrderInfo) (ty : OutboxEventType) : OutboxKey := (aggregateId info.order.id, ty)

def messageOf (info : CreateOrderInfo) (ty : OutboxEventType) : Message :=
  ⟨ty, info.order.id, (textOf info).stringify⟩

/-- The tables of a saga with one order only. -/
structure Scene where
  info : CreateOrderInfo
  stock : ℕ → Option ℤ
  points : ℚ
  version : ℕ
  status : OrderStatus
  rows : OutboxEventType → Option OutboxEventStatus
  journal : List Event

def itemRows (info : CreateOrderInfo) : List OrderItemModel :=
  info.orderItems.map (fun item => ⟨info.order.id, item.productId, item.quantity, item.price⟩)

namespace Scene

structure Shows (sc : Scene) (s : Store) : Prop where
  order : s.db.order sc.info.order.id = some ⟨sc.info.order.userId, sc.status⟩
  items : s.db.orderItem = itemRows sc.info
  stock : s.db.productStock = sc.stock
  wallet : s.db.wallet 1 = some ⟨sc.info.order.userId, sc.version, sc.points⟩
  events : ∀ key, s.db.outboxEvent key = if key.1 = aggregateId sc.info.order.id then
    (sc.rows key.2).map (fun status => ⟨textOf sc.info, status⟩) else none
  journal : s.journal = sc.journal

def create (sc : Scene) (ty : OutboxEventType) (status : OutboxEventStatus) : Scene :=
  { sc with
    rows := Function.update sc.rows ty (some status)
    journal := sc.journal ++ [.created (rowKey sc.info ty) status] }

def mark (sc : Scene) (ty : OutboxEventType) (old new : OutboxEventStatus) : Scene :=
  { sc with
    rows := Function.update sc.rows ty (some new)
    journal := sc.journal ++ [.updated (rowKey sc.info ty) old new] }

def log (sc : Scene) (e : Event) : Scene := { sc with journal := sc.journal ++ [e] }

def sent (sc : Scene) (ty : OutboxEventType) (old : OutboxEventStatus) : Scene :=
  (sc.log (.published ty sc.info.order.id)).mark ty old .success

def lessened (sc : Scene) : Scene :=
  { sc with
    stock := fun p => (sc.stock p).map (fun n =>
      n - ((ProductFacade.deductStockCommand sc.info).quantity p).getD 0) }

def taken (sc : Scene) : Scene :=
  (sc.lessened.create .orderDeductStock .init).log (.committed (.deductStock sc.info.order.id))

def debited (sc : Scene) : Scene :=
  ({ sc with points := sc.points - sc.info.totalAmount, version := sc.version + 1 }.create
    .orderPayment .init).log (.committed (.payment sc.info.order.id))

def closed (sc : Scene) : Scene :=
  (({ sc with status := .paid }.log (.orderSet sc.info.order.id .paid)).create .orderSuccess .init).log
    (.committed (.orderSuccess sc.info.order.id))

def refilled (sc : Scene) : Scene :=
  { sc with stock := fun p => (sc.stock p).map (fun n => n + restoredQuantity sc.info p) }

def restored (sc : Scene) : Scene :=
  sc.refilled.log (.committed (.restoreStock sc.info.order.id))

def Short (sc : Scene) : Prop := ∃ p quantity stock,
  (ProductFacade.deductStockCommand sc.info).quantity p = some quantity ∧ sc.stock p = some stock ∧
    stock < quantity

variable {sc : Scene} {s t : Store} {ty : OutboxEventType} {old new : OutboxEventStatus}

theorem Shows.row (h : sc.Shows s) (ty : OutboxEventType) (hrow : sc.rows ty = some old) :
    s.db.outboxEvent (rowKey sc.info ty) = some ⟨textOf sc.info, old⟩ := by
  rw [h.events]
  simp [rowKey, hrow]

theorem Shows.noRow (h : sc.Shows s) (hrow : sc.rows ty = none) :
    s.db.outboxEvent (rowKey sc.info ty) = none := by
  rw [h.events]
  simp [rowKey, hrow]

theorem events_update {info : CreateOrderInfo} {f : OutboxKey → Option OutboxEventRow}
    {g : OutboxEventType → Option OutboxEventStatus}
    (h : ∀ key, f key = if key.1 = aggregateId info.order.id then
      (g key.2).map (fun status => ⟨textOf info, status⟩) else none)
    (key : OutboxKey) : Function.update f (rowKey info ty) (some ⟨textOf info, new⟩) key =
      if key.1 = aggregateId info.order.id then
        (Function.update g ty (some new) key.2).map (fun status => ⟨textOf info, status⟩)
      else none := by
  obtain ⟨id, ty'⟩ := key
  by_cases hid : id = aggregateId info.order.id
  · subst hid
    by_cases hty : ty' = ty
    · subst hty
      simp [rowKey]
    · have hne : (aggregateId info.order.id, ty') ≠ rowKey info ty := by simp [rowKey, hty]
      rw [Function.update_of_ne hne, h]
      simp [hty]
  · have hne : (id, ty') ≠ rowKey info ty := by simp [rowKey, hid]
    rw [Function.update_of_ne hne, h]
    simp [hid]

theorem Shows.created (h : sc.Shows s) (ty : OutboxEventType) (status : OutboxEventStatus) :
    (sc.create ty status).Shows (s.after
      (.createOutboxEvent (rowKey sc.info ty) (textOf sc.info) status) ⟨textOf sc.info, status⟩) :=
  ⟨h.order, h.items, h.stock, h.wallet, events_update h.events, congrArg (· ++ _) h.journal⟩

theorem Shows.marked (h : sc.Shows s) (ty : OutboxEventType) (hrow : sc.rows ty = some old)
    (new : OutboxEventStatus) : (sc.mark ty old new).Shows
      (s.after (.updateOutboxEvent (rowKey sc.info ty) new) ⟨textOf sc.info, new⟩) := by
  refine ⟨h.order, h.items, h.stock, h.wallet, events_update h.events, ?_⟩
  rw [Store.after_update (h.row ty hrow), h.journal]
  rfl

theorem Shows.restocked (h : sc.Shows s) {stock : ℕ → Option ℤ}
    (hdb : t.db = { s.db with productStock := t.db.productStock }) (hj : t.journal = s.journal)
    (hstock : t.db.productStock = stock) : { sc with stock := stock }.Shows t := by
  refine ⟨?_, ?_, hstock, ?_, ?_, hj.trans h.journal⟩ <;> rw [hdb]
  · exact h.order
  · exact h.items
  · exact h.wallet
  · exact h.events

theorem Shows.paid (h : sc.Shows s) (points : ℚ) :
    { sc with points := points, version := sc.version + 1 }.Shows
      (s.after (.updateWallet 1 (some sc.version) points)
        (1, ⟨sc.info.order.userId, sc.version + 1, points⟩)) := by
  refine ⟨h.order, h.items, h.stock, ?_, h.events, (List.append_nil _).trans h.journal⟩
  simp [Store.after, Query.apply]

theorem Shows.set (h : sc.Shows s) (status : OrderStatus) :
    ({ sc with status := status }.log (.orderSet sc.info.order.id status)).Shows
      (s.after (.updateOrder sc.info.order.id status) ⟨sc.info.order.userId, status⟩) := by
  refine ⟨?_, h.items, h.stock, h.wallet, h.events, congrArg (· ++ _) h.journal⟩
  simp [Store.after, Query.apply, log]

theorem Shows.pointed (h : sc.Shows s) (point : PointModel) :
    sc.Shows (s.after (.createPoint point) point) :=
  ⟨h.order, h.items, h.stock, h.wallet, h.events, (List.append_nil _).trans h.journal⟩

theorem Shows.looked (h : sc.Shows s) (id : ℕ) (row : OrderRow) :
    sc.Shows (s.after (.findUniqueOrThrowOrder id) row) :=
  ⟨h.order, h.items, h.stock, h.wallet, h.events, (List.append_nil _).trans h.journal⟩

theorem Shows.found (h : sc.Shows s) (ty : OutboxEventType) (row : Option OutboxEventRow) :
    sc.Shows (s.after (.findUniqueOutboxEvent (rowKey sc.info ty)) row) :=
  ⟨h.order, h.items, h.stock, h.wallet, h.events, (List.append_nil _).trans h.journal⟩

theorem Shows.logged (h : sc.Shows s) (e : Event) :
    (sc.log e).Shows { s with journal := s.journal ++ [e] } :=
  ⟨h.order, h.items, h.stock, h.wallet, h.events, congrArg (· ++ [e]) h.journal⟩

end Scene

/-- From `w₀` the saga reaches a quiet configuration that shows the scene, by any condition that
permits the steps of single processes. -/
def Staged (w₀ : World) (sc : Scene) (published : List Message)
    (batches : List (Poll × OutboxEventModel)) : Prop :=
  ∃ w, sc.Shows w.store ∧ w.published = published ∧ w.batches = batches ∧
    ∀ ok, Permits ok → Reaches saga ok (quiet w₀) (quiet w)

section Play

variable {sc : Scene} {published : List Message} {batches : List (Poll × OutboxEventModel)}
  {w₀ : World} {s : Store}

theorem Staged.here {w : World} (h : sc.Shows w.store) : Staged w sc w.published w.batches :=
  ⟨w, h, rfl, rfl, fun _ _ => .refl⟩

theorem Staged.reached (h : Staged w₀ sc published batches) (hw : Initial w₀) :
    ∃ w, sc.Shows w.store ∧ w.published = published ∧ w.batches = batches ∧
      ∀ ok, Permits ok → Reachable ok (quiet w) := by
  obtain ⟨w, hshows, hpublished, hbatches, hreach⟩ := h
  exact ⟨w, hshows, hpublished, hbatches, fun ok hok => ⟨w₀, hw, hreach ok hok⟩⟩

theorem Staged.play {sc' : Scene} {published' : List Message}
    {batches' : List (Poll × OutboxEventModel)} (h : Staged w₀ sc published batches) (job : Job)
    (batches₀ : List (Poll × OutboxEventModel))
    (hstart : ∀ w, w.published = published → w.batches = batches →
      job.start w { w with batches := batches₀ })
    (hrun : ∀ w, sc.Shows w.store → w.published = published → w.batches = batches₀ →
      ∃ x w', CalmRuns job.program w x w' ∧ sc'.Shows w'.store ∧
        w'.published = published' ∧ w'.batches = batches') :
    Staged w₀ sc' published' batches' := by
  obtain ⟨w, hshows, hpublished, hbatches, hreach⟩ := h
  obtain ⟨x, w', hruns, hshows', hpublished', hbatches'⟩ :=
    hrun { w with batches := batches₀ } hshows hpublished rfl
  exact ⟨w', hshows', hpublished', hbatches', fun ok hok =>
    solo_reaches (hreach ok hok) hok (hstart w hpublished hbatches) hruns⟩

theorem poll_reads {w : World} (poll : Poll) {ty : OutboxEventType} (h : sc.Shows w.store)
    (hrow : sc.rows ty = some poll.status) (honly : ∀ ty', sc.rows ty' = some poll.status → ty' = ty) :
    pollEvents w { w with batches := w.batches ++ [(poll, readEvent sc.info ty poll.status)] } := by
  refine ⟨poll, [(rowKey sc.info ty, ⟨textOf sc.info, poll.status⟩)],
    ⟨by simp, by simp, ?_, fun _ key row hkey hstatus => ?_⟩,
    rfl⟩
  · simp only [List.mem_singleton, forall_eq]
    exact ⟨h.row ty hrow, trivial⟩
  · rw [h.events] at hkey
    split at hkey
    · rename_i hid
      obtain ⟨status, hst, rfl⟩ := Option.map_eq_some_iff.mp hkey
      have hst' : sc.rows key.2 = some poll.status := hst.trans (congrArg some hstatus)
      obtain rfl := honly key.2 hst'
      obtain rfl : status = poll.status := hstatus
      simp [rowKey, ← hid]
    · cases hkey

theorem Staged.poll (h : Staged w₀ sc published batches) (poll : Poll) (ty : OutboxEventType)
    (hrow : sc.rows ty = some poll.status) (honly : ∀ ty', sc.rows ty' = some poll.status → ty' = ty) :
    Staged w₀ sc published (batches ++ [(poll, readEvent sc.info ty poll.status)]) := by
  obtain ⟨w, hshows, hpublished, rfl, hreach⟩ := h
  exact ⟨{ w with batches := w.batches ++ [(poll, readEvent sc.info ty poll.status)] }, hshows,
    hpublished, rfl, fun ok hok =>
      (hreach ok hok).env (poll_reads poll hshows hrow honly) (hok.env _)⟩

theorem Staged.send {ty : OutboxEventType}
    (h : Staged w₀ sc published ((.handleInitEvents, readEvent sc.info ty .init) :: batches))
    (hty : ty = .orderCreated ∨ ty = .orderDeductStock ∨ ty = .orderPayment) {old : OutboxEventStatus}
    (hrow : sc.rows ty = some old) :
    Staged w₀ (sc.sent ty old) (published ++ [messageOf sc.info ty]) batches := by
  refine h.play (.event .handleInitEvents (readEvent sc.info ty .init)) batches ?_ ?_
  · intro w _ hbatches
    exact ⟨by simp [hbatches], by simp [hbatches]⟩
  · rintro w hshows rfl hbatches
    have hrow' := hshows.row ty hrow
    have hmarked := (hshows.logged (.published ty sc.info.order.id)).marked ty hrow .success
    refine ⟨.success (), ⟨_, w.published ++ [messageOf sc.info ty], w.batches⟩, ?_, hmarked, rfl, hbatches⟩
    rcases hty with rfl | rfl | rfl
    all_goals
      exact publish_then (by trivial) (statement_then _ (by rintro ⟨⟩) ⟨_, hrow', rfl⟩ (.succeed _ _))

theorem Staged.handle {ty : OutboxEventType} {sc' : Scene} (h : Staged w₀ sc published [])
    (hm : messageOf sc.info ty ∈ published)
    (hrun : ∀ w, sc.Shows w.store → ∃ x t, CalmRuns (Job.message (messageOf sc.info ty)).program w
      x { w with store := t } ∧ sc'.Shows t) : Staged w₀ sc' published [] := by
  refine h.play (.message (messageOf sc.info ty)) [] ?_ ?_
  · rintro ⟨store, sent, batches⟩ rfl rfl
    exact ⟨hm, rfl⟩
  · rintro w hshows hpublished hbatches
    obtain ⟨x, t, hruns, hshows'⟩ := hrun w hshows
    exact ⟨x, _, hruns, hshows', hpublished, hbatches⟩

theorem created_runs (h : sc.Shows s) {ty : OutboxEventType} (hrow : sc.rows ty = none)
    (status : OutboxEventStatus) : ∃ model, Effect.Runs Store.exec
      (OutboxEventService.createOutboxEvent (aggregateId sc.info.order.id) ty (textOf sc.info) status) s
      (.success model) (s.after (.createOutboxEvent (rowKey sc.info ty) (textOf sc.info) status)
        ⟨textOf sc.info, status⟩) :=
  ⟨_, Effect.runs_map_success.mpr ⟨_, runs_tryPromise.mpr ⟨⟨h.noRow hrow, rfl⟩, rfl⟩, rfl⟩⟩

theorem taken_runs (h : sc.Shows s) (hitems : sc.info.orderItems ≠ []) (hstock : ¬ sc.Short)
    (hrow : sc.rows .orderDeductStock = none) : ∃ t,
      Effect.Runs Store.exec (ProductFacade.deducting sc.info) s (.success ()) t ∧
      (sc.lessened.create .orderDeductStock .init).Shows t := by
  have hcovered : ¬ ShortOf (ProductFacade.deductStockCommand sc.info) s.db := by
    rwa [ShortOf, h.stock]
  obtain ⟨u, hdeduct, hrun⟩ := deducting_run answering_exec hitems hcovered (h.noRow hrow)
  obtain ⟨rows, _, _, rfl⟩ := runs_deductStock hdeduct
  obtain ⟨hdb, hj⟩ := updateAll_same s (rows.map (deducted (ProductFacade.deductStockCommand sc.info)))
  have hlessened : sc.lessened.Shows _ := h.restocked hdb hj (funext (fun p => by
    rw [deduction_stock hdeduct, h.stock]))
  exact ⟨_, hrun, hlessened.created .orderDeductStock .init⟩

theorem Staged.deduct (h : Staged w₀ sc published []) (hm : messageOf sc.info .orderCreated ∈ published)
    (hitems : sc.info.orderItems ≠ []) (hstock : ¬ sc.Short) (hrow : sc.rows .orderDeductStock = none) :
    Staged w₀ sc.taken published [] := by
  refine h.handle hm (fun w hshows => ?_)
  obtain ⟨t, hbody, ht⟩ := taken_runs hshows hitems hstock hrow
  exact ⟨.success (), _, commit_then (by rintro _ ⟨⟩) (runs_effectWithTransaction.mpr hbody) (.succeed _ _),
    ht.logged _⟩

theorem Staged.reject (h : Staged w₀ sc published []) (hm : messageOf sc.info .orderCreated ∈ published)
    (hitems : sc.info.orderItems ≠ []) (hstock : sc.Short) (hrow : sc.rows .orderDeductStock = none) :
    Staged w₀ (sc.create .orderDeductStock .fail) published [] := by
  refine h.handle hm (fun w hshows => ?_)
  have hshort : ShortOf (ProductFacade.deductStockCommand sc.info) w.store.db := by
    rwa [ShortOf, hshows.stock]
  exact ⟨.success (), _, reject_then (by rintro _ ⟨⟩) (deducting_rejected answering_exec hitems hshort)
    (statement_then _ (by rintro ⟨⟩) ⟨hshows.noRow hrow, rfl⟩ (.succeed _ _)),
    hshows.created .orderDeductStock .fail⟩

theorem Staged.cancel
    (h : Staged w₀ sc published [(.handleFailedEvents, readEvent sc.info .orderDeductStock .fail)])
    (hrow : sc.rows .orderDeductStock = some .fail) :
    Staged w₀ (({ sc with status := .failed }.log (.orderSet sc.info.order.id .failed)).mark
      .orderDeductStock .fail .success) published [] := by
  refine h.play (.event .handleFailedEvents (readEvent sc.info .orderDeductStock .fail)) [] ?_ ?_
  · intro w _ hbatches
    exact ⟨by simp [hbatches], by simp [hbatches]⟩
  · rintro w hshows rfl hbatches
    have hset := hshows.set .failed
    have hmarked := hset.marked .orderDeductStock hrow .success
    exact ⟨.success (), ⟨_, w.published, w.batches⟩, statement_then _ (by rintro ⟨⟩)
      ⟨_, hshows.order, rfl⟩ (statement_then _ (by rintro ⟨⟩)
        ⟨_, hset.row .orderDeductStock hrow, rfl⟩ (.succeed _ _)), hmarked, rfl, hbatches⟩

theorem wallet_read (h : sc.Shows s) : Effect.Runs Store.exec
    (WalletRepository.getByUserId sc.info.order.userId) s
    (.success ⟨1, sc.info.order.userId, sc.points, sc.version⟩) s :=
  (Effect.runs_catchAll_success (fun _ => ⟨_, rfl⟩)).mpr (Effect.runs_map_success.mpr
    ⟨(1, ⟨sc.info.order.userId, sc.version, sc.points⟩),
      runs_tryPromise.mpr ⟨⟨h.wallet, rfl⟩, (Store.after_read rfl rfl).symm⟩, rfl⟩)

theorem paid_runs {amount : ℚ} (h : sc.Shows s) (henough : amount ≤ sc.points) :
    ∃ wallet t, Effect.Runs Store.exec (WalletService.completePayment sc.info.order.userId amount) s
        (.success wallet) t ∧
      { sc with points := sc.points - amount, version := sc.version + 1 }.Shows t := by
  have hpayable : Effect.Runs Store.exec
      ((⟨1, sc.info.order.userId, sc.points, sc.version⟩ : WalletModel).payable amount) s
      (.success true) s := by
    rw [WalletModel.payable, if_pos henough]
    exact .succeed true s
  have hpointed := h.pointed ⟨1, -amount, .use⟩
  have hread : Effect.Runs Store.exec ((WalletRepository.getByUserId sc.info.order.userId).tap
      (fun wallet => wallet.payable amount)) s (.success _) s :=
    Effect.runs_tap_success.mpr ⟨s, true, wallet_read h, hpayable⟩
  have hcreate : Effect.Runs Store.exec (((WalletRepository.getByUserId sc.info.order.userId).tap
      (fun wallet => wallet.payable amount)).tap (WalletService.createPoint amount)) s (.success _) _ :=
    Effect.runs_tap_success.mpr ⟨_, _, hread, runs_tryPromise.mpr ⟨rfl, rfl⟩⟩
  have hupdate : Effect.Runs Store.exec
      (WalletRepository.update 1 (sc.points - amount) (some sc.version)) _ (.success _) _ :=
    (Effect.runs_catchAll_success (fun _ => ⟨_, rfl⟩)).mpr (Effect.runs_map_success.mpr
      ⟨(1, ⟨sc.info.order.userId, sc.version + 1, sc.points - amount⟩), runs_tryPromise.mpr
        ⟨⟨rfl, _, hpointed.wallet, fun _ => Option.some.inj, rfl⟩, rfl⟩, rfl⟩)
  refine ⟨_, _, (Effect.runs_catchAll_success (fun e => by split <;> exact ⟨_, rfl⟩)).mpr
    (Effect.runs_flatMap_success.mpr ⟨_, _, hcreate, hupdate⟩), hpointed.paid _⟩

theorem paying_runs (h : sc.Shows s) (henough : sc.info.totalAmount ≤ sc.points)
    (hrow : sc.rows .orderPayment = none) : ∃ wallet t,
      Effect.Runs Store.exec (UserFacade.paying sc.info) s (.success wallet) t ∧
      ({ sc with points := sc.points - sc.info.totalAmount, version := sc.version + 1 }.create
        .orderPayment .init).Shows t := by
  obtain ⟨wallet, t, hpaid, ht⟩ := paid_runs h henough
  obtain ⟨model, hmodel⟩ := created_runs ht hrow .init
  exact ⟨wallet, _, Effect.runs_tap_success.mpr ⟨_, model, hpaid, hmodel⟩, ht.created .orderPayment .init⟩

theorem Staged.pay (h : Staged w₀ sc published []) (hm : messageOf sc.info .orderDeductStock ∈ published)
    (henough : sc.info.totalAmount ≤ sc.points) (hrow : sc.rows .orderPayment = none) :
    Staged w₀ sc.debited published [] := by
  refine h.handle hm (fun w hshows => ?_)
  obtain ⟨wallet, t, hbody, ht⟩ := paying_runs hshows henough hrow
  exact ⟨.success (), _, commit_then (by rintro _ ⟨⟩) (runs_effectWithTransaction.mpr hbody) (.succeed _ _),
    ht.logged _⟩

theorem unpaid_runs (h : sc.Shows s) (hshort : ¬ sc.info.totalAmount ≤ sc.points) :
    ∃ e, Effect.Runs Store.exec (PrismaService.effectWithTransaction (UserFacade.paying sc.info)) s
      (.failure e) s := by
  let e : Error := .appConflict ErrorCodes.walletInsufficientPoint
  have hpayable : Effect.Runs Store.exec ((⟨1, sc.info.order.userId, sc.points, sc.version⟩ :
      WalletModel).payable sc.info.totalAmount) s (.failure e) s := by
    rw [WalletModel.payable, if_neg hshort]
    exact .fail e s
  have hread : Effect.Runs Store.exec ((WalletRepository.getByUserId sc.info.order.userId).tap
      (fun wallet => wallet.payable sc.info.totalAmount)) s (.failure e) s :=
    Effect.runs_flatMap.mpr ⟨.success _, s, wallet_read h, Effect.runs_flatMap_failure hpayable⟩
  have hpaying : Effect.Runs Store.exec (UserFacade.paying sc.info) s (.failure e) s :=
    Effect.runs_flatMap_failure (Effect.runs_catchAll_failure
      (Effect.runs_flatMap_failure (Effect.runs_flatMap_failure hread)) (.fail e s))
  exact ⟨e, Effect.runs_catchAll_failure hpaying (.fail e s)⟩

theorem Staged.refuse (h : Staged w₀ sc published []) (hm : messageOf sc.info .orderDeductStock ∈ published)
    (hshort : ¬ sc.info.totalAmount ≤ sc.points) (hrow : sc.rows .orderPayment = none) :
    Staged w₀ (sc.create .orderPayment .fail) published [] := by
  refine h.handle hm (fun w hshows => ?_)
  obtain ⟨e, hbody⟩ := unpaid_runs hshows hshort
  exact ⟨.success (), _, reject_then (by rintro _ ⟨⟩) hbody (statement_then _ (by rintro ⟨⟩)
    ⟨hshows.noRow hrow, rfl⟩ (.succeed _ _)), hshows.created .orderPayment .fail⟩

theorem Staged.succeed (h : Staged w₀ sc published []) (hm : messageOf sc.info .orderPayment ∈ published)
    (hrow : sc.rows .orderSuccess = none) :
    Staged w₀ sc.closed published [] := by
  refine h.handle hm (fun w hshows => ?_)
  have hlooked := hshows.looked sc.info.order.id ⟨sc.info.order.userId, sc.status⟩
  have hset := hlooked.set .paid
  exact ⟨.success (), _, commit_then (by rintro _ ⟨⟩) (query_then answering_exec _ hshows.order
    (query_then answering_exec _ ⟨_, hlooked.order, rfl⟩
      (query_then answering_exec _ ⟨hset.noRow hrow, rfl⟩ (.succeed _ _)))) (.succeed _ _),
    (hset.created .orderSuccess .init).logged _⟩

theorem restored_runs (h : sc.Shows s) (hitems : sc.info.orderItems ≠ []) : ∃ t, Effect.Runs Store.exec
    (PrismaService.effectWithTransaction (restoring sc.info)) s (.success ()) t ∧
      sc.refilled.Shows t := by
  obtain ⟨rows, hrows⟩ := rows_exist s.db (productIds_nodup (ProductFacade.deductStockCommand sc.info))
    (command_nonempty hitems)
  have hids : (Query.selectStocksForUpdate (sc.info.orderItems.map (·.productId))).Allows s.db rows := by
    refine ⟨by simpa using hitems, hrows.2.1, fun row => ?_⟩
    rw [hrows.2.2, mem_deductStockCommand]
  have hrun := restoring_run hids
  obtain ⟨hdb, hj⟩ := updateAll_same s (rows.map (StockEffects.restored sc.info))
  exact ⟨_, runs_effectWithTransaction.mpr hrun, h.restocked hdb hj (funext (fun p => by
    rw [restoration_stock hrun, h.stock]))⟩

theorem Staged.compensate
    (h : Staged w₀ sc published [(.handleFailedEvents, readEvent sc.info .orderPayment .fail)])
    (hitems : sc.info.orderItems ≠ []) (hrow : sc.rows .orderPayment = some .fail) :
    Staged w₀ (sc.restored.mark .orderPayment .fail .success) published [] := by
  refine h.play (.event .handleFailedEvents (readEvent sc.info .orderPayment .fail)) [] ?_ ?_
  · intro w _ hbatches
    exact ⟨by simp [hbatches], by simp [hbatches]⟩
  · rintro w hshows rfl hbatches
    obtain ⟨t, hbody, ht⟩ := restored_runs hshows hitems
    have hrestored : sc.restored.Shows _ := ht.logged (.committed (.restoreStock sc.info.order.id))
    have hmarked := hrestored.marked .orderPayment hrow .success
    refine ⟨.success (), ⟨_, w.published, w.batches⟩, ?_, hmarked, rfl, hbatches⟩
    refine commit_then ?_ hbody (statement_then _ (by rintro ⟨⟩)
      ⟨_, hrestored.row .orderPayment hrow, rfl⟩ (.succeed _ _))
    rintro o ⟨⟩
    exact ⟨textOf sc.info, hshows.row .orderPayment hrow⟩

end Play

/-- What a user orders, with what is in stock and in the user's wallet: some items of distinct
products. -/
structure Purchase where
  userId : ℕ
  commands : List CreateOrderItemCommand
  stock : ℕ → Option ℤ
  points : ℚ
  filled : commands ≠ []
  distinct : (commands.map (·.productId)).Nodup

namespace Purchase

variable (b : Purchase)

def opening : World :=
  ⟨⟨⟨fun _ => none, [], b.stock, fun id => if id = 1 then some ⟨b.userId, 0, b.points⟩ else none, [],
    fun _ => none⟩, []⟩, [], []⟩

def items : List OrderItemModel :=
  b.commands.map (fun item => ⟨1, item.productId, item.quantity, item.price⟩)

def info : CreateOrderInfo := .ofModels ⟨1, b.userId, .pendingPayment⟩ b.items

def placed : Scene :=
  ⟨b.info, b.stock, b.points, 0, .pendingPayment, Function.update (fun _ => none) .orderCreated (some .init),
    [.created (rowKey b.info .orderCreated) .init, .committed .order]⟩

def orderedStore : Store :=
  (((b.opening.store.after (.createOrder b.userId) (1, ⟨b.userId, .pendingPayment⟩)).after
    (.createManyOrderItems b.items) ()).after (.findManyOrderItems 1) b.items).after
    (.createOutboxEvent (rowKey b.info .orderCreated) (textOf b.info) .init) ⟨textOf b.info, .init⟩

theorem info_filled : b.info.orderItems ≠ [] := by
  simpa [info, items, CreateOrderInfo.ofModels] using b.filled

theorem items_found : Effect.Runs Store.exec (OrderItemRepository.createMany b.items)
    (b.opening.store.after (.createOrder b.userId) (1, ⟨b.userId, .pendingPayment⟩)) (.success b.items)
    (((b.opening.store.after (.createOrder b.userId) (1, ⟨b.userId, .pendingPayment⟩)).after
      (.createManyOrderItems b.items) ()).after (.findManyOrderItems 1) b.items) := by
  have hdistinct : (b.items.map (fun item => (item.orderId, item.productId))).Nodup := by
    have hpairs := b.distinct.map (f := fun p => ((1 : ℕ), p)) (fun _ _ h => (Prod.mk.inj h).2)
    simpa [items, Function.comp_def] using hpairs
  have hmine : b.items.filter (fun item => item.orderId = 1) = b.items :=
    List.filter_eq_self.mpr (fun item hitem => by
      obtain ⟨_, _, rfl⟩ := List.mem_map.mp hitem
      rfl)
  have hfound : List.Perm b.items (([] ++ b.items).filter (fun item => item.orderId = 1)) := by
    rw [List.nil_append, hmine]
  obtain ⟨item, rest, hcommands⟩ := List.exists_cons_of_ne_nil b.filled
  have hitems : b.items = ⟨1, item.productId, item.quantity, item.price⟩ ::
      rest.map (fun item => ⟨1, item.productId, item.quantity, item.price⟩) := by
    rw [items, hcommands, List.map_cons]
  refine query_then answering_exec () ⟨hdistinct, by simp [opening, Store.after, Query.apply]⟩ ?_
  rw [hitems] at hfound ⊢
  exact query_then answering_exec _ hfound (.succeed _ _)

theorem ordering_runs : Effect.Runs Store.exec
    (PrismaService.effectWithTransaction
      ((OrderService.createOrder b.userId b.commands).flatMap OrderFacade.createOutboxEvent))
    b.opening.store (.success b.info) b.orderedStore := by
  have horder : Effect.Runs Store.exec (OrderService.createOrder b.userId b.commands) b.opening.store
      (.success b.info) _ :=
    query_then answering_exec (1, ⟨b.userId, .pendingPayment⟩) ⟨rfl, rfl⟩
      (Effect.runs_map_success.mpr ⟨b.items, b.items_found, rfl⟩)
  refine runs_effectWithTransaction.mpr (Effect.runs_flatMap_success.mpr ⟨b.info, _, horder, ?_⟩)
  exact query_then answering_exec _ ⟨rfl, rfl⟩ (.succeed _ _)

theorem items_rows : b.items = itemRows b.info := by
  simp [items, itemRows, info, CreateOrderInfo.ofModels]

theorem initial : Initial b.opening := ⟨fun _ => rfl, rfl, fun _ => rfl, rfl, rfl, rfl⟩

theorem placed_shows : b.placed.Shows (b.opening.commit .order b.orderedStore).store :=
  ⟨rfl, b.items_rows, rfl, rfl,
    Scene.events_update (f := fun _ => none) (g := fun _ => none) (fun _ => by simp), rfl⟩

theorem staged_order : Staged b.opening b.placed [] [] := by
  have hruns : CalmRuns (Job.order b.userId b.commands).program b.opening (.success ()) _ :=
    commit_then (by rintro _ ⟨⟩) b.ordering_runs (.succeed _ _)
  have hstart : (Job.order b.userId b.commands).start b.opening b.opening := rfl
  exact ⟨_, b.placed_shows, rfl, rfl, fun ok hok => solo_reaches .refl hok hstart hruns⟩

variable {b}

theorem covered (h : ∀ item ∈ b.commands, ∀ n, b.stock item.productId = some n → item.quantity ≤ n) :
    ¬ b.placed.Short := by
  rintro ⟨p, quantity, stock, hquantity, hstock, hlt⟩
  have hdistinct : (b.info.orderItems.map (·.productId)).Nodup := by
    simpa [info, items, CreateOrderInfo.ofModels, Function.comp_def] using b.distinct
  have hasked : (ProductFacade.deductStockCommand b.info).quantity p = some quantity := hquantity
  rw [command_quantity hdistinct] at hasked
  obtain ⟨item, hfind, rfl⟩ := Option.map_eq_some_iff.mp hasked
  obtain rfl : item.productId = p := by simpa using List.find?_some hfind
  obtain ⟨row, hrow, rfl⟩ := List.mem_map.mp (List.mem_of_find?_eq_some hfind)
  obtain ⟨command, hcommand, rfl⟩ := List.mem_map.mp hrow
  exact absurd (h command hcommand stock hstock) (not_le.mpr hlt)

theorem placed_only (ty : OutboxEventType) (h : b.placed.rows ty = some .init) :
    ty = .orderCreated := by
  cases ty <;> first | rfl | cases h

theorem staged_read_twice : Staged b.opening b.placed []
    [(.handleInitEvents, readEvent b.info .orderCreated .init),
      (.handleInitEvents, readEvent b.info .orderCreated .init)] :=
  (b.staged_order.poll .handleInitEvents .orderCreated rfl placed_only).poll .handleInitEvents
    .orderCreated rfl placed_only

variable {w₀ : World}

theorem placed_sends (h : Staged w₀ b.placed [] []) :
    Staged w₀ (b.placed.sent .orderCreated .init) [messageOf b.info .orderCreated] [] := by
  have hread := h.poll .handleInitEvents .orderCreated rfl placed_only
  exact hread.send (.inl rfl) rfl

theorem placed_takes (h : Staged w₀ b.placed [] []) (hstock : ¬ b.placed.Short) :
    Staged w₀ (b.placed.sent .orderCreated .init).taken [messageOf b.info .orderCreated] [] :=
  (placed_sends h).deduct List.mem_cons_self b.info_filled hstock rfl

theorem staged_taken (hstock : ¬ b.placed.Short) :
    Staged b.opening (b.placed.sent .orderCreated .init).taken [messageOf b.info .orderCreated] [] :=
  placed_takes b.staged_order hstock

theorem staged_cancelled (hstock : b.placed.Short) : ∃ sc : Scene, sc.info = b.info ∧
    sc.status = .failed ∧ sc.rows .orderDeductStock = some .success ∧
    .created (rowKey b.info .orderDeductStock) .fail ∈ sc.journal ∧
    Staged b.opening sc [messageOf b.info .orderCreated] [] := by
  have hrejected := (placed_sends b.staged_order).reject List.mem_cons_self b.info_filled hstock rfl
  have hread := hrejected.poll .handleFailedEvents .orderDeductStock rfl (by
    rintro (_ | _ | _ | _ | _ | _) h <;> first | rfl | cases h)
  refine ⟨_, rfl, rfl, rfl, ?_, hread.cancel rfl⟩
  exact List.mem_append_left _ (List.mem_append_left _ (List.mem_append_right _ List.mem_cons_self))

def offered (b : Purchase) : Scene :=
  (b.placed.sent .orderCreated .init).taken.sent .orderDeductStock .init

theorem placed_offers (h : Staged w₀ b.placed [] []) (hstock : ¬ b.placed.Short) :
    Staged w₀ b.offered [messageOf b.info .orderCreated, messageOf b.info .orderDeductStock] [] := by
  have hread := (placed_takes h hstock).poll .handleInitEvents .orderDeductStock rfl (by
    rintro (_ | _ | _ | _ | _ | _) h <;> first | rfl | cases h)
  exact hread.send (.inr (.inl rfl)) rfl

theorem staged_offered (hstock : ¬ b.placed.Short) : Staged b.opening b.offered
    [messageOf b.info .orderCreated, messageOf b.info .orderDeductStock] [] :=
  placed_offers b.staged_order hstock

def closed (b : Purchase) : Scene := (b.offered.debited.sent .orderPayment .init).closed

theorem closed_journal {ty : OutboxEventType}
    (hty : ty = .orderCreated ∨ ty = .orderDeductStock ∨ ty = .orderPayment) :
    .created (rowKey b.info ty) .init ∈ b.closed.journal ∧
      .updated (rowKey b.info ty) .init .success ∈ b.closed.journal := by
  rcases hty with rfl | rfl | rfl <;>
    simp [closed, Scene.closed, Scene.log, Scene.create, Scene.sent, Scene.mark, Scene.debited, offered,
      Scene.taken, Scene.lessened, placed]

theorem offered_closes (h : Staged w₀ b.offered
      [messageOf b.info .orderCreated, messageOf b.info .orderDeductStock] [])
    (henough : b.info.totalAmount ≤ b.points) :
    Staged w₀ b.closed [messageOf b.info .orderCreated,
      messageOf b.info .orderDeductStock, messageOf b.info .orderPayment] [] := by
  have hpaid := h.pay (List.mem_cons_of_mem _ List.mem_cons_self) henough rfl
  have hread := hpaid.poll .handleInitEvents .orderPayment rfl (by
    rintro (_ | _ | _ | _ | _ | _) h <;> first | rfl | cases h)
  exact (hread.send (.inr (.inr rfl)) rfl).succeed
    (List.mem_cons_of_mem _ (List.mem_cons_of_mem _ List.mem_cons_self)) rfl

theorem staged_closed (hstock : ¬ b.placed.Short) (henough : b.info.totalAmount ≤ b.points) :
    Staged b.opening b.closed [messageOf b.info .orderCreated, messageOf b.info .orderDeductStock,
        messageOf b.info .orderPayment] [] :=
  offered_closes (staged_offered hstock) henough

def unpaid (b : Purchase) : Scene := b.offered.create .orderPayment .fail

theorem staged_unpaid (hstock : ¬ b.placed.Short) (hshort : ¬ b.info.totalAmount ≤ b.points) :
    Staged b.opening b.unpaid [messageOf b.info .orderCreated, messageOf b.info .orderDeductStock] [] :=
  (staged_offered hstock).refuse (List.mem_cons_of_mem _ List.mem_cons_self) hshort rfl

theorem unpaid_only (ty : OutboxEventType) (h : b.unpaid.rows ty = some .fail) : ty = .orderPayment := by
  cases ty <;> first | rfl | cases h

theorem staged_compensated (hstock : ¬ b.placed.Short) (hshort : ¬ b.info.totalAmount ≤ b.points) :
    Staged b.opening (b.unpaid.restored.mark .orderPayment .fail .success)
      [messageOf b.info .orderCreated, messageOf b.info .orderDeductStock] [] :=
  ((staged_unpaid hstock hshort).poll .handleFailedEvents .orderPayment rfl unpaid_only).compensate
    b.info_filled rfl

end Purchase

def tea (points : ℚ) : Purchase where
  userId := 7
  commands := [⟨1, 3, 2⟩]
  stock p := if p = 1 then some 10 else none
  points := points
  filled := List.cons_ne_nil _ _
  distinct := List.nodup_singleton _

def firstOrder : CreateOrderInfo := ⟨⟨1, 7, .pendingPayment⟩, [⟨1, 3, 2⟩]⟩

theorem tea_covered (points : ℚ) : ¬ (tea points).placed.Short := by
  refine Purchase.covered (fun item hitem n hn => ?_)
  obtain rfl := List.mem_singleton.mp hitem
  cases hn
  decide

theorem firstOrder_total : firstOrder.totalAmount = 6 := by
  norm_num [CreateOrderInfo.totalAmount, firstOrder]

theorem tea_enough : (tea 10).info.totalAmount ≤ (tea 10).points := by
  show firstOrder.totalAmount ≤ 10
  rw [firstOrder_total]
  norm_num

theorem tea_dear : ¬ (tea 0).info.totalAmount ≤ (tea 0).points := by
  show ¬ firstOrder.totalAmount ≤ 0
  rw [firstOrder_total]
  norm_num

end EcommerceService.SagaRuns
