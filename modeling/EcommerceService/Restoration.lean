import Mathlib.Data.List.Dedup
import EcommerceService.SagaCalls
import EcommerceService.Redelivery
import EcommerceService.StockLocking

namespace EcommerceService.Restoration

open EcommerceService.Effects EcommerceService.Errors EcommerceService.Models
open EcommerceService.Database EcommerceService.Repositories EcommerceService.Backend
open EcommerceService.OutboxPolling EcommerceService.Saga EcommerceService.SagaCalls
open EcommerceService.TransactionEffects EcommerceService.StockEffects EcommerceService.StockLocking

inductive Commit where
  | done
  | unacknowledged
  | failed
deriving DecidableEq, Repr

/-- The steps of the restoring transaction that fail. -/
structure Outage where
  start : Bool
  lockingRead : Bool
  bulkUpdate : ℕ → Bool
  commit : Commit

namespace Outage

def fails (o : Outage) : Query → Bool
  | .selectStocksForUpdate _ => o.lockingRead
  | .updateManyStock productId _ => o.bulkUpdate productId
  | _ => false

def query (o : Outage) (q : Query) (s : Store) : Option q.Answer → Store → Prop
  | some v, t => o.fails q = false ∧ Store.exec q s (some v) t
  | none, t => (o.fails q = true ∨ ∀ v, ¬ q.Allows s.db v) ∧ t = s

def exec (o : Outage) : (c : Call) → World → c.Reply → World → Prop
  | .transaction kind _ body, w, .resolved a, w' => o.start = false ∧ o.commit = .done ∧
      ∃ t, Effect.Runs o.query body w.store (.success a) t ∧ w' = w.commit kind t
  | .transaction _ _ body, w, .rejected (some e), w' => o.start = false ∧
      (∃ t, Effect.Runs o.query body w.store (.failure e) t) ∧ w' = w
  | .transaction kind _ body, w, .rejected none, w' => (o.start = true ∧ w' = w) ∨
      o.start = false ∧ ∃ a t, Effect.Runs o.query body w.store (.success a) t ∧
        (o.commit = .failed ∧ w' = w ∨ o.commit = .unacknowledged ∧ w' = w.commit kind t)
  | .statement q, w, r, w' => World.exec (.statement q) w r w'
  | .emit eventType key value, w, r, w' => World.exec (.emit eventType key value) w r w'

end Outage

def ordered (info : CreateOrderInfo) (p : ℕ) : ℤ :=
  quantityOf p (info.orderItems.map (fun item => (item.productId, item.quantity)))

def AddedBack (info : CreateOrderInfo) (db db' : Tables) : Prop :=
  (∀ item ∈ info.orderItems, (db.productStock item.productId).isSome) ∧
  ∀ p, db'.productStock p = (db.productStock p).map (fun n => n + ordered info p)

/-- The transaction that adds every item's quantity back has committed. -/
structure Restored (info : CreateOrderInfo) (w w' : World) : Prop where
  committed : w'.store.journal.count (.committed (.restoreStock info.order.id)) =
    w.store.journal.count (.committed (.restoreStock info.order.id)) + 1
  addedBack : AddedBack info w.store.db w'.store.db

def statusOf (key : OutboxKey) (w : World) : Option OutboxEventStatus :=
  (w.store.db.outboxEvent key).map (·.status)

/-- The row is done only if the stock is restored, and else it stays failed. -/
structure Honest (info : CreateOrderInfo) (key : OutboxKey) (w w' : World) : Prop where
  done : statusOf key w' = some .success → Restored info w w'
  kept : ¬ Restored info w w' → statusOf key w' = some .fail

/-- No step of the transaction fails, every item has a stock row, and the first item of a
product has the quantity of all its items. -/
structure Smooth (o : Outage) (info : CreateOrderInfo) (db : Tables) : Prop where
  start : o.start = false
  lockingRead : o.lockingRead = false
  bulkUpdate : ∀ item ∈ info.orderItems, o.bulkUpdate item.productId = false
  commit : o.commit ≠ .failed
  orderItems : info.orderItems ≠ []
  row : ∀ item ∈ info.orderItems, (db.productStock item.productId).isSome
  first : ∀ p, restoredQuantity info p = ordered info p

section Transaction

variable {o : Outage} {info : CreateOrderInfo} {s t : Store} {w w' : World}

theorem Outage.query_exec {q : Query} {r : Option q.Answer} (h : o.query q s r t) :
    Store.exec q s r t := by
  cases r with
  | none => exact h.2
  | some v => exact h.2

theorem Outage.query_answers (o : Outage) (q : Query) (s : Store) : ∃ r t, o.query q s r t := by
  by_cases h : o.fails q = true ∨ ∀ v, ¬ q.Allows s.db v
  · exact ⟨none, s, h, rfl⟩
  · push Not at h
    obtain ⟨hspared, v, hv⟩ := h
    exact ⟨some v, _, by simpa using hspared, hv, rfl⟩

theorem Outage.exec_world {c : Call} {r : c.Reply} (h : o.exec c w r w') : World.exec c w r w' := by
  cases c with
  | statement q => exact h
  | emit eventType key value => exact h
  | transaction kind A body =>
    have hmono : ∀ {x t}, Effect.Runs o.query body w.store x t →
        Effect.Runs Store.exec body w.store x t :=
      fun hr => hr.mono (fun _ _ _ _ => Outage.query_exec)
    match r with
    | .resolved a =>
      obtain ⟨_, _, t, ht, rfl⟩ := h
      exact ⟨t, hmono ht, rfl⟩
    | .rejected (some e) =>
      obtain ⟨_, ⟨t, ht⟩, rfl⟩ := h
      exact ⟨⟨t, hmono ht⟩, rfl⟩
    | .rejected none =>
      obtain ⟨_, rfl⟩ | ⟨_, a, t, ht, ⟨_, rfl⟩ | ⟨_, rfl⟩⟩ := h
      · exact .inl rfl
      · exact .inl rfl
      · exact .inr ⟨a, t, hmono ht, rfl⟩

theorem Outage.replies {A : Type} {body : Statements A} (hbody : body.Settles) (o : Outage)
    (kind : TransactionKind) (w : World) :
    ∃ r w', o.exec (.transaction kind A body) w r w' := by
  cases hstart : o.start with
  | true => exact ⟨.rejected none, w, .inl ⟨hstart, rfl⟩⟩
  | false =>
    obtain ⟨x, t, hr⟩ := Effect.runs_exists body o.query_answers w.store
    cases x with
    | failure e => exact ⟨.rejected (some e), w, hstart, ⟨t, hr⟩, rfl⟩
    | defect => exact absurd rfl (hbody.runs hr)
    | success a =>
      cases hcommit : o.commit with
      | done => exact ⟨.resolved a, _, hstart, hcommit, t, hr, rfl⟩
      | unacknowledged =>
        exact ⟨.rejected none, _, .inr ⟨hstart, a, t, hr, .inr ⟨hcommit, rfl⟩⟩⟩
      | failed => exact ⟨.rejected none, w, .inr ⟨hstart, a, t, hr, .inl ⟨hcommit, rfl⟩⟩⟩

theorem tryPromise_settles (q : Query) : (tryPromise q).Settles := by
  refine Effect.settles_perform.mpr (fun r => ?_)
  cases r with
  | none => exact Effect.settles_fail
  | some v => exact Effect.settles_succeed

theorem updateBulk_settles (updates : List ProductStockModel) :
    (ProductStockRepository.updateBulk updates).Settles := by
  refine (Effect.Settles.all (fun p hp => ?_)).map.catchAll (fun _ => Effect.settles_fail)
  obtain ⟨update, _, rfl⟩ := List.mem_map.mp hp
  exact tryPromise_settles _

theorem restoring_settles (info : CreateOrderInfo) : (restoring info).Settles := by
  refine Effect.Settles.flatMap (Effect.Settles.flatMap ?_ (fun stocks => ?_)) updateBulk_settles
  · exact (tryPromise_settles _).catchAll (fun _ => Effect.settles_fail)
  · refine Effect.Settles.all (fun p hp => ?_)
    obtain ⟨stock, _, rfl⟩ := List.mem_map.mp hp
    rw [addStock]
    split
    · exact Effect.settles_succeed
    · exact Effect.settles_fail

theorem body_settles {A : Type} {effect : Statements A} (h : effect.Settles) :
    (PrismaService.effectWithTransaction effect).Settles := by
  refine h.catchAll (fun e => ?_)
  split
  · exact Effect.settles_fail
  · exact Effect.settles_fail

theorem runs_spared {q : Query} {v : q.Answer} (h : Effect.Runs o.query (tryPromise q) s (.success v) t) :
    o.fails q = false ∧ Store.exec q s (some v) t := by
  obtain ⟨r, s', hq, hr⟩ := Effect.runs_perform.mp h
  cases r with
  | none => cases (Effect.runs_fail.mp hr).1
  | some v' =>
    obtain ⟨heq, rfl⟩ := Effect.runs_succeed.mp hr
    cases heq
    exact hq

theorem runs_all_spared {updates : List ProductStockModel} {us : List Unit}
    (h : Effect.Runs o.query (Effect.all (updates.map (fun update =>
      tryPromise (.updateManyStock update.productId update.stock)))) s (.success us) t) :
    ∀ update ∈ updates, o.bulkUpdate update.productId = false := by
  induction updates generalizing s us with
  | nil => simp
  | cons update updates ih =>
    obtain ⟨_, u, hu, hrest⟩ := Effect.runs_flatMap_success.mp h
    obtain ⟨us', hus, _⟩ := Effect.runs_map_success.mp hrest
    exact List.forall_mem_cons.mpr ⟨(runs_spared hu).1, ih hus⟩

theorem runs_restoring_spared {a : Unit}
    (h : Effect.Runs o.query (restoring info) s (.success a) t) :
    o.lockingRead = false ∧ info.orderItems ≠ [] ∧
      ∀ item ∈ info.orderItems, (s.db.productStock item.productId).isSome →
        o.bulkUpdate item.productId = false := by
  obtain ⟨updates, u, hadd, hupdate⟩ := Effect.runs_flatMap_success.mp h
  obtain ⟨rows, v, hfind, hrows⟩ := Effect.runs_flatMap_success.mp hadd
  obtain ⟨hread, ⟨hne, _, hmem⟩, _⟩ :=
    runs_spared ((Effect.runs_catchAll_success (fun _ => ⟨_, rfl⟩)).mp hfind)
  rw [addStocks_found (fun row hrow => ((hmem row).mp hrow).1)] at hrows
  obtain ⟨heq, rfl⟩ := Effect.runs_succeed.mp hrows
  cases heq
  obtain ⟨us, hus, _⟩ :=
    Effect.runs_map_success.mp ((Effect.runs_catchAll_success (fun _ => ⟨_, rfl⟩)).mp hupdate)
  refine ⟨hread, fun hnil => hne (by rw [hnil]; rfl), fun item hitem hstock => ?_⟩
  obtain ⟨n, hn⟩ := Option.isSome_iff_exists.mp hstock
  have hrow : ⟨item.productId, n⟩ ∈ rows := (hmem _).mpr ⟨List.mem_map_of_mem hitem, hn⟩
  exact runs_all_spared hus _ (List.mem_map_of_mem (f := restored info) hrow)

theorem all_updates_exit {updates : List ProductStockModel}
    (hspared : ∀ update ∈ updates, o.bulkUpdate update.productId = false) {x : Exit Error (List Unit)}
    (h : Effect.Runs o.query (Effect.all (updates.map (fun update =>
      tryPromise (.updateManyStock update.productId update.stock)))) s x t) :
    ∃ us, x = .success us := by
  induction updates generalizing s t x with
  | nil => exact ⟨[], (Effect.runs_succeed.mp h).1⟩
  | cons update updates ih =>
    obtain ⟨hfirst, hrest⟩ := List.forall_mem_cons.mp hspared
    obtain ⟨y, u, hy, hx⟩ := Effect.runs_flatMap.mp h
    obtain ⟨r, s', hq, hr⟩ := Effect.runs_perform.mp hy
    cases r with
    | none =>
      obtain hfails | hnone := hq.1
      · cases hfirst.symm.trans hfails
      · exact (hnone () trivial).elim
    | some v =>
      obtain ⟨rfl, rfl⟩ := Effect.runs_succeed.mp hr
      obtain ⟨z, u', hz, hx⟩ := Effect.runs_flatMap.mp hx
      obtain ⟨us, rfl⟩ := ih hrest hz
      exact ⟨_, (Effect.runs_succeed.mp hx).1⟩

theorem restoring_exit (hread : o.lockingRead = false)
    (hupdate : ∀ item ∈ info.orderItems, o.bulkUpdate item.productId = false)
    (hitems : info.orderItems ≠ []) {x : Exit Error Unit}
    (h : Effect.Runs o.query (restoring info) s x t) : x = .success () := by
  obtain ⟨y, u, hy, hx⟩ := Effect.runs_flatMap.mp h
  obtain ⟨z, v, hz, hy⟩ := Effect.runs_flatMap.mp hy
  obtain ⟨r, v', hr, hz⟩ := Effect.runs_catchAll.mp hz
  obtain ⟨answer, v'', hq, hr⟩ := Effect.runs_perform.mp hr
  cases answer with
  | none =>
    obtain hfails | hnone := hq.1
    · cases hread.symm.trans hfails
    · obtain ⟨rows, _, hn, hmem⟩ := rows_exist s.db
        (List.nodup_dedup (info.orderItems.map (·.productId))) (by simpa using hitems)
      exact absurd ⟨by simpa using hitems, hn, fun row => by simpa using hmem row⟩ (hnone rows)
  | some rows =>
    obtain ⟨_, ⟨_, _, hmem⟩, rfl⟩ := hq
    obtain ⟨rfl, rfl⟩ := Effect.runs_succeed.mp hr
    obtain ⟨rfl, rfl⟩ := Effect.runs_succeed.mp hz
    simp only [Effect.resume] at hy
    rw [addStocks_found (fun row hrow => ((hmem row).mp hrow).1)] at hy
    obtain ⟨rfl, rfl⟩ := Effect.runs_succeed.mp hy
    obtain ⟨y, u, hy, hx⟩ := Effect.runs_catchAll.mp hx
    obtain ⟨z, u', hz, hy⟩ := Effect.runs_flatMap.mp hy
    have hspared : ∀ update ∈ rows.map (restored info), o.bulkUpdate update.productId = false := by
      intro update hu
      obtain ⟨row, hrow, rfl⟩ := List.mem_map.mp hu
      obtain ⟨item, hitem, hid⟩ := List.mem_map.mp ((hmem row).mp hrow).1
      exact hid ▸ hupdate item hitem
    obtain ⟨us, rfl⟩ := all_updates_exit hspared hz
    obtain ⟨rfl, rfl⟩ := Effect.runs_succeed.mp hy
    exact (Effect.runs_succeed.mp hx).1

theorem not_restored_same : ¬ Restored info w w := by
  rintro ⟨hcount, _⟩
  omega

/-- A committed restoration has added every item's quantity back exactly when every item's
product has a row and the first item of each product has its whole quantity. -/
theorem commit_restored {a : Unit}
    (h : Effect.Runs Store.exec (restoring info) w.store (.success a) t) :
    Restored info w (w.commit (.restoreStock info.order.id) t) ↔
      (∀ item ∈ info.orderItems, (w.store.db.productStock item.productId).isSome) ∧
      ∀ p, restoredQuantity info p = ordered info p := by
  have hstock := restoration_stock h
  constructor
  · rintro ⟨_, hrow, hadded⟩
    refine ⟨hrow, fun p => ?_⟩
    cases hp : w.store.db.productStock p with
    | some n =>
      have heq := (hstock p).symm.trans (hadded p)
      simpa [hp] using heq
    | none =>
      have hout : ∀ item ∈ info.orderItems, item.productId ≠ p := by
        rintro item hitem rfl
        simpa [hp] using hrow item hitem
      rw [restoredQuantity, List.find?_eq_none.mpr (fun item hitem => by simpa using hout item hitem),
        ordered, quantityOf_none (by simpa using hout)]
      rfl
  · rintro ⟨hrow, hfirst⟩
    refine ⟨?_, hrow, fun p => ?_⟩
    · simp [World.commit, (runs_restoring h).journal]
    · simpa [World.commit, hfirst p] using hstock p

/-- Whatever reply the transaction gets, the stock is restored exactly in smooth conditions. -/
theorem restored_iff {r : Settled Unit}
    (h : o.exec (.transaction (.restoreStock info.order.id) Unit
      (PrismaService.effectWithTransaction (restoring info))) w r w') :
    Restored info w w' ↔ Smooth o info w.store.db := by
  have hcommitted : ∀ {a : Unit} {t : Store}, o.start = false → o.commit ≠ .failed →
      Effect.Runs o.query (PrismaService.effectWithTransaction (restoring info)) w.store
        (.success a) t →
      (Restored info w (w.commit (.restoreStock info.order.id) t) ↔ Smooth o info w.store.db) := by
    intro a t hstart hcommit hr
    have hr := runs_effectWithTransaction.mp hr
    obtain ⟨hread, hitems, hspared⟩ := runs_restoring_spared hr
    rw [commit_restored (hr.mono (fun _ _ _ _ => Outage.query_exec))]
    exact ⟨fun ⟨hrow, hfirst⟩ => ⟨hstart, hread, fun item hi => hspared item hi (hrow item hi),
      hcommit, hitems, hrow, hfirst⟩, fun hs => ⟨hs.row, hs.first⟩⟩
  match r with
  | .resolved a =>
    obtain ⟨hstart, hcommit, t, hr, rfl⟩ := h
    exact hcommitted hstart (by simp [hcommit]) hr
  | .rejected (some e) =>
    obtain ⟨_, ⟨t, hr⟩, rfl⟩ := h
    refine iff_of_false not_restored_same (fun hs => ?_)
    obtain ⟨y, u, hy, hr⟩ := Effect.runs_catchAll.mp hr
    obtain rfl := restoring_exit hs.lockingRead hs.bulkUpdate hs.orderItems hy
    cases (Effect.runs_succeed.mp hr).1
  | .rejected none =>
    obtain ⟨hstart, rfl⟩ | ⟨hstart, a, t, hr, ⟨hcommit, rfl⟩ | ⟨hcommit, rfl⟩⟩ := h
    · refine iff_of_false not_restored_same (fun hs => ?_)
      cases hstart.symm.trans hs.start
    · exact iff_of_false not_restored_same (fun hs => hs.commit hcommit)
    · exact hcommitted hstart (by simp [hcommit]) hr

end Transaction

section Handling

variable {o : Outage} {info : CreateOrderInfo} {w w' : World} {x : Exit Error Unit}
  {event : OutboxEventModel}

theorem runs_updateStatus {status : OutboxEventStatus}
    (h : Effect.Runs o.exec (updateStatus event status) w x w') :
    World.Change (.statement (.updateOutboxEvent (event.aggregateId, event.eventType) status)) w w' := by
  obtain ⟨r, u, hcall, hk⟩ := Effect.runs_perform.mp h
  cases r with
  | none =>
    obtain ⟨_, rfl⟩ := Effect.runs_fail.mp hk
    exact World.exec_change (Outage.exec_world hcall)
  | some v =>
    obtain ⟨_, rfl⟩ := Effect.runs_succeed.mp hk
    exact World.exec_change (Outage.exec_world hcall)

theorem updateStatus_run {status : OutboxEventStatus} {row : OutboxEventRow}
    (hrow : w.store.db.outboxEvent (event.aggregateId, event.eventType) = some row) :
    Effect.Runs o.exec (updateStatus event status) w (.success ())
      { w with
        store := w.store.after (.updateOutboxEvent (event.aggregateId, event.eventType) status)
          { row with status := status } } :=
  Effect.runs_perform.mpr ⟨some _, _, ⟨_, ⟨⟨row, hrow, rfl⟩, rfl⟩, rfl⟩, .succeed () _⟩

theorem runs_executeCompensation (hty : event.eventType = .orderPayment)
    (hpayload : rawPayload event.payload = some (.order info)) :
    Effect.Runs o.exec (executeCompensation event) w x w' ↔
      ∃ r u, o.exec (.transaction (.restoreStock info.order.id) Unit
        (PrismaService.effectWithTransaction (restoring info))) w r u ∧
        Effect.Runs o.exec (updateStatus event .success) u x w' := by
  have heq : executeCompensation event =
      ((compensate .orderPayment (some info)).promise .unknownException).flatMap
        (fun _ => updateStatus event .success) := by
    rw [executeCompensation, hpayload, hty]
    rfl
  rw [heq, compensate, if_pos rfl, PrismaService.transaction]
  simp only [Effect.catchAll, Effect.promise, Effect.flatMap, Effect.runs_perform]
  refine exists_congr (fun r => exists_congr (fun u => and_congr_right (fun hcall => ?_)))
  cases r with
  | resolved a => rfl
  | rejected e =>
    have hconflict := rejection_conflict (restoring_confined info) ⟨w, u, Outage.exec_world hcall⟩
    simp only [Effect.catchAll, hconflict, if_true]
    rfl

theorem restored_update {u : World} {key : OutboxKey} {status : OutboxEventStatus}
    (h : World.Change (.statement (.updateOutboxEvent key status)) u w') :
    Restored info w w' ↔ Restored info w u := by
  have hsame : w'.store.db.productStock = u.store.db.productStock ∧
      w'.store.journal.count (.committed (.restoreStock info.order.id)) =
        u.store.journal.count (.committed (.restoreStock info.order.id)) := by
    cases h with
    | same => exact ⟨rfl, rfl⟩
    | statement hexec =>
      obtain ⟨⟨old, hold, rfl⟩, rfl⟩ := hexec
      exact ⟨rfl, by rw [Store.after_update hold, List.count_append]; rfl⟩
  constructor
  · rintro ⟨hcount, hrow, hadded⟩
    exact ⟨hsame.2 ▸ hcount, hrow, hsame.1 ▸ hadded⟩
  · rintro ⟨hcount, hrow, hadded⟩
    exact ⟨hsame.2.trans hcount, hrow, fun p => hsame.1 ▸ hadded p⟩

theorem restoring_rows {r : Settled Unit}
    (h : o.exec (.transaction (.restoreStock info.order.id) Unit
      (PrismaService.effectWithTransaction (restoring info))) w r w') :
    w'.store.db.outboxEvent = w.store.db.outboxEvent := by
  cases World.exec_change (Outage.exec_world h) with
  | same => rfl
  | commit hr => exact (runs_restoring (runs_effectWithTransaction.mp hr)).outboxEvent

variable {key : String} {payload : Json}

def failedPayment (key : String) (payload : Json) : OutboxEventModel :=
  OutboxEventModel.from (key, .orderPayment) ⟨payload, .fail⟩

theorem smooth_of_honest (hpayload : rawPayload payload.stringify = some (.order info))
    (hrow : w.store.db.outboxEvent (key, .orderPayment) = some ⟨payload, .fail⟩)
    (h : ∀ x w', Effect.Runs o.exec (executeCompensation (failedPayment key payload)) w x w' →
      Honest info (key, .orderPayment) w w') : Smooth o info w.store.db := by
  obtain ⟨r, u, hcall⟩ := o.replies (body_settles (restoring_settles info)) (.restoreStock info.order.id) w
  have hold : u.store.db.outboxEvent (key, .orderPayment) = some ⟨payload, .fail⟩ := by
    rw [restoring_rows hcall, hrow]
  have hupdate : Effect.Runs o.exec (updateStatus (failedPayment key payload) .success) u
      (.success ()) _ := updateStatus_run hold
  have hdone := (h _ _ ((runs_executeCompensation rfl hpayload).mpr ⟨r, u, hcall, hupdate⟩)).done
  have hstatus : statusOf (key, .orderPayment) { u with
      store := u.store.after (.updateOutboxEvent (key, .orderPayment) .success)
        ⟨payload, .success⟩ } = some .success := by simp [statusOf, Store.after, Query.apply]
  exact (restored_iff hcall).mp ((restored_update (runs_updateStatus hupdate)).mp (hdone hstatus))

/-- The row of a failed payment tells the truth about the restoration in every run exactly
in smooth conditions. -/
theorem restoration_recorded (hpayload : rawPayload payload.stringify = some (.order info))
    (hrow : w.store.db.outboxEvent (key, .orderPayment) = some ⟨payload, .fail⟩) :
    (∀ x w', Effect.Runs o.exec (executeCompensation (failedPayment key payload)) w x w' →
      Honest info (key, .orderPayment) w w') ↔ Smooth o info w.store.db := by
  refine ⟨smooth_of_honest hpayload hrow, fun hs x w' hr => ?_⟩
  obtain ⟨r, u, hcall, hupdate⟩ := (runs_executeCompensation rfl hpayload).mp hr
  have hrestored := (restored_update (runs_updateStatus hupdate)).mpr ((restored_iff hcall).mpr hs)
  exact ⟨fun _ => hrestored, fun hnot => absurd hrestored hnot⟩

end Handling

section Scenes

def unpaidOrder : World :=
  ⟨⟨{ order := fun _ => none
      orderItem := []
      productStock := fun p => if p = 1 then some 7 else none
      wallet := fun _ => none
      point := []
      outboxEvent := fun key =>
        if key = SagaRuns.rowKey SagaRuns.firstOrder .orderPayment then some ⟨(SagaRuns.textOf SagaRuns.firstOrder), .fail⟩ else none },
    []⟩, [], []⟩

def calm : Outage := ⟨false, false, fun _ => false, .done⟩

theorem unpaidOrder_row : unpaidOrder.store.db.outboxEvent (SagaRuns.rowKey SagaRuns.firstOrder .orderPayment) =
    some ⟨(SagaRuns.textOf SagaRuns.firstOrder), .fail⟩ := by simp [unpaidOrder]

theorem restoration_recorded_calm : Smooth calm SagaRuns.firstOrder unpaidOrder.store.db ∧
    ∀ x w', Effect.Runs calm.exec
      (executeCompensation (failedPayment (aggregateId 1) (SagaRuns.textOf SagaRuns.firstOrder))) unpaidOrder x w' →
      Honest SagaRuns.firstOrder (SagaRuns.rowKey SagaRuns.firstOrder .orderPayment) unpaidOrder w' := by
  have hdistinct : (SagaRuns.firstOrder.orderItems.map (·.productId)).Nodup := by decide
  have hsmooth : Smooth calm SagaRuns.firstOrder unpaidOrder.store.db :=
    ⟨rfl, rfl, fun _ _ => rfl, by decide, by decide, by decide,
      fun p => (restored_quantity p hdistinct).symm⟩
  exact ⟨hsmooth, (restoration_recorded rfl unpaidOrder_row).mpr hsmooth⟩

/-- The locking read of the restoration fails, and the row is set to `SUCCESS` all the same. -/
theorem recorded_unrestored : ¬ ∀ (o : Outage) (info : CreateOrderInfo) (key : String) (payload : Json)
    (w : World), rawPayload payload.stringify = some (.order info) →
    w.store.db.outboxEvent (key, .orderPayment) = some ⟨payload, .fail⟩ →
    ∀ x w', Effect.Runs o.exec (executeCompensation (failedPayment key payload)) w x w' →
      Honest info (key, .orderPayment) w w' := by
  intro h
  have hsmooth := smooth_of_honest rfl unpaidOrder_row
    (h { calm with lockingRead := true } SagaRuns.firstOrder (aggregateId 1) (SagaRuns.textOf SagaRuns.firstOrder)
      unpaidOrder rfl unpaidOrder_row)
  cases hsmooth.lockingRead

end Scenes

end EcommerceService.Restoration
