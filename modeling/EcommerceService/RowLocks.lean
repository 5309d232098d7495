import EcommerceService.Lib.Transactions
import EcommerceService.TransactionEffects

namespace EcommerceService.RowLocks

open EcommerceService.Effects EcommerceService.Errors EcommerceService.Models
open EcommerceService.Database EcommerceService.TransactionEffects

/-- What a transaction locks: a row under its key, or the items of an order. -/
inductive Row where
  | order (id : ℕ)
  | orderItem (orderId : ℕ)
  | productStock (productId : ℕ)
  | wallet (id : ℕ)
  | outboxEvent (key : OutboxKey)
deriving DecidableEq

def Row.agree : Row → Store → Store → Prop
  | order id, s, t => s.db.order id = t.db.order id
  | orderItem orderId, s, t => itemsOf s.db orderId = itemsOf t.db orderId
  | productStock productId, s, t => s.db.productStock productId = t.db.productStock productId
  | wallet id, s, t => s.db.wallet id = t.db.wallet id
  | outboxEvent key, s, t => s.db.outboxEvent key = t.db.outboxEvent key

/-- A locking read locks the rows it returns, a write the rows it writes. -/
def locks : (q : Query) → q.Answer → List Row
  | .createOrder _, (id, _) => [.order id]
  | .createManyOrderItems items, _ => items.map (fun item => .orderItem item.orderId)
  | .updateOrder id _, _ => [.order id]
  | .selectStocksForUpdate _, rows => rows.map (fun row => .productStock row.productId)
  | .updateManyStock productId _, _ => [.productStock productId]
  | .updateWallet id _ _, _ => [.wallet id]
  | .createOutboxEvent key _ _, _ => [.outboxEvent key]
  | .updateOutboxEvent key _, _ => [.outboxEvent key]
  | _, _ => []

/-- The statements that are no plain reads. -/
def Guarded : Query → Prop
  | .findManyOrderItems _ => False
  | .findUniqueOrThrowOrder _ => False
  | .findUniqueOrThrowWallet _ => False
  | .findUniqueOutboxEvent _ => False
  | _ => True

def Shape (s t : Store) : Prop :=
  ∀ p, (s.db.productStock p).isSome = (t.db.productStock p).isSome

theorem shape_after (s : Store) (q : Query) (v : q.Answer) : Shape s (s.after q v) := by
  intro p
  cases q with
  | updateManyStock productId stock =>
    by_cases hp : p = productId
    · subst hp
      simp [Store.after, Query.apply]
    · simp [Store.after, Query.apply, hp]
  | _ => rfl

theorem plain_after {s : Store} {q : Query} {v : q.Answer} (h : ¬ Guarded q) : s.after q v = s := by
  cases q with
  | findManyOrderItems _ => exact Store.after_read rfl rfl
  | findUniqueOrThrowOrder _ => exact Store.after_read rfl rfl
  | findUniqueOrThrowWallet _ => exact Store.after_read rfl rfl
  | findUniqueOutboxEvent _ => exact Store.after_read rfl rfl
  | _ => exact absurd trivial h

theorem itemsOf_append {db : Tables} {items : List OrderItemModel} {orderId : ℕ} :
    (db.orderItem ++ items).filter (fun item => item.orderId = orderId) =
      itemsOf db orderId ++ items.filter (fun item => item.orderId = orderId) :=
  List.filter_append ..

theorem frame_after {s : Store} {q : Query} {v : q.Answer} {k : Row} (hk : k ∉ locks q v) :
    k.agree s (s.after q v) := by
  cases q with
  | createOrder _ =>
    cases k with
    | order id' => exact (Function.update_of_ne (by simpa [locks] using hk) _ _).symm
    | _ => rfl
  | updateOrder id _ =>
    cases k with
    | order id' => exact (Function.update_of_ne (by simpa [locks] using hk) _ _).symm
    | _ => rfl
  | createManyOrderItems items =>
    cases k with
    | orderItem orderId =>
      have hnone : items.filter (fun item => item.orderId = orderId) = [] := by
        refine List.filter_eq_nil_iff.mpr (fun item hitem => ?_)
        simp only [decide_eq_true_eq]
        rintro rfl
        exact hk (List.mem_map_of_mem hitem)
      show itemsOf s.db orderId = (s.db.orderItem ++ items).filter _
      rw [itemsOf_append, hnone, List.append_nil]
    | _ => rfl
  | updateManyStock _ _ =>
    cases k with
    | productStock p => exact (Function.update_of_ne (by simpa [locks] using hk) _ _).symm
    | _ => rfl
  | updateWallet id _ _ =>
    cases k with
    | wallet id' => exact (Function.update_of_ne (by simpa [locks] using hk) _ _).symm
    | _ => rfl
  | createOutboxEvent key _ _ =>
    cases k with
    | outboxEvent key' => exact (Function.update_of_ne (by simpa [locks] using hk) _ _).symm
    | _ => rfl
  | updateOutboxEvent key _ =>
    cases k with
    | outboxEvent key' => exact (Function.update_of_ne (by simpa [locks] using hk) _ _).symm
    | _ => rfl
  | _ => cases k <;> rfl

/-- A guarded statement may be answered alike wherever the rows it locks are the same. -/
theorem guarded_allows {s t : Store} {q : Query} {v : q.Answer} (hg : Guarded q)
    (h : q.Allows s.db v) (hs : Shape s t) (ha : ∀ k ∈ locks q v, k.agree s t) :
    q.Allows t.db v := by
  cases q with
  | createOrder _ =>
    have hrow : s.db.order v.1 = t.db.order v.1 := ha (.order v.1) (List.mem_singleton_self _)
    exact ⟨hrow ▸ h.1, h.2⟩
  | createManyOrderItems items =>
    refine ⟨h.1, fun item hitem old hold hid => h.2 item hitem old ?_ hid⟩
    have hitems : itemsOf s.db item.orderId = itemsOf t.db item.orderId :=
      ha (.orderItem item.orderId) (List.mem_map_of_mem hitem)
    have hmem : old ∈ itemsOf t.db item.orderId := List.mem_filter.mpr ⟨hold, by simpa using hid⟩
    exact (List.mem_filter.mp (hitems ▸ hmem)).1
  | updateOrder id _ =>
    have hrow : s.db.order id = t.db.order id := ha (.order id) (List.mem_singleton_self _)
    obtain ⟨old, hold, hv⟩ := h
    exact ⟨old, hrow ▸ hold, hv⟩
  | selectStocksForUpdate ids =>
    refine ⟨h.1, h.2.1, fun row => ⟨fun hmem => ?_, fun ⟨hid, hstock⟩ => ?_⟩⟩
    · have hrow : s.db.productStock row.productId = t.db.productStock row.productId :=
        ha (.productStock row.productId) (List.mem_map_of_mem hmem)
      exact ⟨((h.2.2 row).mp hmem).1, hrow ▸ ((h.2.2 row).mp hmem).2⟩
    · have hsome : (s.db.productStock row.productId).isSome = true := by
        rw [hs row.productId, hstock]
        rfl
      obtain ⟨n, hn⟩ := Option.isSome_iff_exists.mp hsome
      have hmem : (⟨row.productId, n⟩ : ProductStockModel) ∈ v := (h.2.2 _).mpr ⟨hid, hn⟩
      have hrow : s.db.productStock row.productId = t.db.productStock row.productId :=
        ha (.productStock row.productId) (List.mem_map.mpr ⟨_, hmem, rfl⟩)
      rw [hn, hstock] at hrow
      cases hrow
      exact hmem
  | updateManyStock _ _ => trivial
  | updateWallet id _ _ =>
    have hrow : s.db.wallet id = t.db.wallet id := ha (.wallet id) (List.mem_singleton_self _)
    obtain ⟨hid, old, hold, hv⟩ := h
    exact ⟨hid, old, hrow ▸ hold, hv⟩
  | createPoint _ => exact h
  | createOutboxEvent key _ _ =>
    have hrow : s.db.outboxEvent key = t.db.outboxEvent key :=
      ha (.outboxEvent key) (List.mem_singleton_self _)
    exact ⟨hrow ▸ h.1, h.2⟩
  | updateOutboxEvent key _ =>
    have hrow : s.db.outboxEvent key = t.db.outboxEvent key :=
      ha (.outboxEvent key) (List.mem_singleton_self _)
    obtain ⟨old, hold, hv⟩ := h
    exact ⟨old, hrow ▸ hold, hv⟩
  | _ => exact hg.elim

theorem update_agree {K V : Type} [DecidableEq K] {f g : K → V} {k k' : K} {v v' : V}
    (h : f k = g k) (hv : k = k' → v = v') : Function.update f k' v k = Function.update g k' v' k := by
  by_cases hk : k = k'
  · subst hk
    simpa using hv rfl
  · simpa [Function.update_of_ne hk] using h

theorem agree_after {s t : Store} (q : Query) (v : q.Answer) {k : Row} (h : k.agree s t) :
    k.agree (s.after q v) (t.after q v) := by
  cases q with
  | createOrder _ =>
    cases k with
    | order id => exact update_agree h (fun _ => rfl)
    | _ => exact h
  | updateOrder _ _ =>
    cases k with
    | order id => exact update_agree h (fun _ => rfl)
    | _ => exact h
  | createManyOrderItems items =>
    cases k with
    | orderItem orderId =>
      show (s.db.orderItem ++ items).filter _ = (t.db.orderItem ++ items).filter _
      rw [itemsOf_append, itemsOf_append, show itemsOf s.db orderId = itemsOf t.db orderId from h]
    | _ => exact h
  | updateManyStock p n =>
    cases k with
    | productStock p' => exact update_agree h (fun hp => by subst hp; exact congrArg (Option.map _) h)
    | _ => exact h
  | updateWallet _ _ _ =>
    cases k with
    | wallet id => exact update_agree h (fun _ => rfl)
    | _ => exact h
  | createOutboxEvent _ _ _ =>
    cases k with
    | outboxEvent key => exact update_agree h (fun _ => rfl)
    | _ => exact h
  | updateOutboxEvent _ _ =>
    cases k with
    | outboxEvent key => exact update_agree h (fun _ => rfl)
    | _ => exact h
  | _ => cases k <;> exact h

def engine : Transactions.Engine Query Query.Answer Store Row where
  run q s v t := q.Allows s.db v ∧ t = s.after q v
  locks := locks
  guarded := Guarded
  shape := Shape
  shape_equiv := ⟨fun _ _ => rfl, fun h p => (h p).symm, fun h h' p => (h p).trans (h' p)⟩
  keeps q s v t h := h.2 ▸ shape_after s q v
  agree := Row.agree
  agree_refl k s := by cases k <;> rfl
  agree_trans k s t u h h' := by cases k <;> exact Eq.trans h h'
  plain q s v t hq h := h.2.trans (plain_after hq)
  guard q s v s' t hg h hs ha :=
    ⟨t.after q v, ⟨guarded_allows hg h.1 hs ha, rfl⟩, fun k hk => h.2 ▸ agree_after q v hk⟩
  frame q s v t k h hk := h.2 ▸ frame_after hk

theorem engine_exec : engine.exec = Store.exec := by
  funext q s r t
  cases r <;> rfl

end EcommerceService.RowLocks
