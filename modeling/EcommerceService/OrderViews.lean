import EcommerceService.OrderData
import EcommerceService.SagaOutcomes

namespace EcommerceService.OrderViews

open EcommerceService.Effects EcommerceService.Errors EcommerceService.Models
open EcommerceService.Database EcommerceService.Repositories
open EcommerceService.Pool EcommerceService.TransactionEffects
open EcommerceService.OrderLife EcommerceService.Saga EcommerceService.SagaInvariant
open EcommerceService.OrderData (userOf exec_createOrder exec_sameData)
open EcommerceService.SagaRuns

section Code

def OrderService.getOrder (userId orderId : ℕ) : Statements OrderModel :=
  ((OrderRepository.getById orderId).flatMap (fun order =>
    if userId ≠ order.userId then .fail (.appNotFound ErrorCodes.orderNotFound)
    else .succeed order)).catchAll .fail

def OrderFacade.getOrder (userId orderId : ℕ) : Statements OrderModel :=
  OrderService.getOrder userId orderId

end Code

/-- What a user gets to see of an order: the order, or that there is none. -/
inductive Sees (db : Tables) (userId orderId : ℕ) : Exit Error OrderModel → Prop
  | order {status : OrderStatus} : db.order orderId = some ⟨userId, status⟩ →
      Sees db userId orderId (.success ⟨orderId, userId, status⟩)
  | notFound : Sees db userId orderId (.failure (.appNotFound ErrorCodes.orderNotFound))

inductive Follows : OrderStatus → OrderStatus → Prop
  | same (status : OrderStatus) : Follows status status
  | paid : Follows .pendingPayment .paid
  | failed : Follows .pendingPayment .failed

section Reads

variable {userId orderId : ℕ} {s t : Store} {x : Exit Error OrderModel}

theorem runs_getOrder (h : Effect.Runs Store.exec (OrderFacade.getOrder userId orderId) s x t) :
    Sees s.db userId orderId x ∧ t.db = s.db := by
  obtain ⟨y, u, hread, hx⟩ := Effect.runs_catchAll.mp h
  obtain ⟨z, v, hget, hown⟩ := Effect.runs_flatMap.mp hread
  obtain ⟨a, w, hmodel, hz⟩ := Effect.runs_catchAll.mp hget
  obtain ⟨b, hcall, rfl⟩ := Effect.runs_map.mp hmodel
  obtain ⟨r, s', hexec, hr⟩ := Effect.runs_perform.mp hcall
  cases r with
  | none =>
    obtain rfl : s' = s := hexec
    obtain ⟨rfl, rfl⟩ := Effect.runs_fail.mp hr
    obtain ⟨rfl, rfl⟩ := Effect.runs_fail.mp hz
    obtain ⟨rfl, rfl⟩ := Effect.runs_fail.mp hown
    obtain ⟨rfl, rfl⟩ := Effect.runs_fail.mp hx
    exact ⟨.notFound, rfl⟩
  | some row =>
    obtain ⟨hrow, hs'⟩ := hexec
    obtain ⟨rfl, rfl⟩ := Effect.runs_succeed.mp hr
    obtain ⟨rfl, rfl⟩ := Effect.runs_succeed.mp hz
    have hdb : v.db = s.db := by
      rw [hs']
      rfl
    by_cases huser : userId = row.userId
    · subst huser
      have hsame : Effect.Runs Store.exec (.succeed (OrderModel.from orderId row)) v y u := by
        simpa [Effect.resume, OrderModel.from] using hown
      obtain ⟨rfl, rfl⟩ := Effect.runs_succeed.mp hsame
      obtain ⟨rfl, rfl⟩ := Effect.runs_succeed.mp hx
      exact ⟨.order hrow, hdb⟩
    · have hother : Effect.Runs Store.exec (.fail (.appNotFound ErrorCodes.orderNotFound)) v y u := by
        simpa [Effect.resume, OrderModel.from, huser] using hown
      obtain ⟨rfl, rfl⟩ := Effect.runs_fail.mp hother
      obtain ⟨rfl, rfl⟩ := Effect.runs_fail.mp hx
      exact ⟨.notFound, hdb⟩

theorem getOrder_runs {status : OrderStatus} (h : s.db.order orderId = some ⟨userId, status⟩) :
    Effect.Runs Store.exec (OrderFacade.getOrder userId orderId) s
      (.success ⟨orderId, userId, status⟩) s := by
  have hcall : Effect.Runs Store.exec (tryPromise (.findUniqueOrThrowOrder orderId)) s
      (.success ⟨userId, status⟩) s :=
    runs_tryPromise.mpr ⟨h, (Store.after_read rfl rfl).symm⟩
  have hget : Effect.Runs Store.exec (OrderRepository.getById orderId) s
      (.success ⟨orderId, userId, status⟩) s :=
    (Effect.runs_catchAll_success (fun _ => ⟨_, rfl⟩)).mpr
      (Effect.runs_map_success.mpr ⟨_, hcall, rfl⟩)
  refine (Effect.runs_catchAll_success (fun e => ⟨e, rfl⟩)).mpr
    (Effect.runs_flatMap_success.mpr ⟨_, s, hget, ?_⟩)
  rw [if_neg (not_not.mpr rfl)]
  exact .succeed _ s

end Reads

section Users

variable {s t : Store} {o userId : ℕ}

theorem exec_user {q : Query} {r : Option q.Answer} (h : Store.exec q s r t)
    (huser : userOf s.db o = some userId) : userOf t.db o = some userId := by
  by_cases hq : OrderData.Inserts q
  · cases r with
    | none => exact h ▸ huser
    | some v =>
      cases q with
      | createOrder userId' =>
        obtain ⟨hnone, _, hupdate, _⟩ := exec_createOrder h
        have hne : o ≠ v.1 := by
          rintro rfl
          rw [userOf, hnone] at huser
          cases huser
        rw [hupdate, Function.update_of_ne hne]
        exact huser
      | createManyOrderItems items =>
        obtain ⟨_, rfl⟩ := h
        exact huser
      | createOutboxEvent key payload status =>
        obtain ⟨_, rfl⟩ := h
        exact huser
      | _ => exact hq.elim
  · rw [(exec_sameData hq h).user]
    exact huser

theorem runs_user {A : Type} {p : Statements A} {x : Exit Error A}
    (h : Effect.Runs Store.exec p s x t) (huser : userOf s.db o = some userId) :
    userOf t.db o = some userId := by
  induction h with
  | succeed => exact huser
  | fail => exact huser
  | die => exact huser
  | perform hc _ ih => exact ih (exec_user hc huser)

theorem reaches_user {ok : Configuration → Action → Prop} {c c' : Configuration}
    (h : Reaches saga ok c c') (huser : userOf c.shared.store.db o = some userId) :
    userOf c'.shared.store.db o = some userId := by
  induction h with
  | refl => exact huser
  | tail _ hstep ih =>
    obtain ⟨l, hs, _⟩ := hstep
    refine step_shared (R := fun w w' => userOf w.store.db o = some userId →
      userOf w'.store.db o = some userId) (fun w w' hstore _ hw => ?_) (fun q w r w' hexec hw => ?_) hs ih
    · rw [hstore]
      exact hw
    · cases World.exec_change hexec with
      | same => exact hw
      | statement hq => exact exec_user hq hw
      | @commit _ _ _ _ _ t hr =>
        have huser' : userOf t.db o = some userId := runs_user hr hw
        exact huser'
      | publish => exact hw

end Users

section Stages

variable {ph ph' : Phase} {status : OrderStatus}

theorem follows_stage (h : ph ≤ ph') (hstatus : ph.orderStatus = some status) :
    ∃ status', ph'.orderStatus = some status' ∧ Follows status status' := by
  cases ph <;> cases hstatus <;> cases ph' <;>
    first
    | exact absurd h (by decide)
    | exact ⟨_, rfl, .same _⟩
    | exact ⟨_, rfl, .paid⟩
    | exact ⟨_, rfl, .failed⟩

theorem cancelled_not_deducted (hc : .cancelled ≤ ph) : ¬ .deducted ≤ ph := by
  cases ph <;> first | exact absurd hc (by decide) | decide

end Stages

/-- An order that a user has once seen is that user's: whatever happens in between, a later look
of the same user finds it again unless the call is rejected, its status the same or gone from
`PENDING_PAYMENT` to `PAID` or `FAILED`, and no other user finds it. An order seen as `PAID` has
had its stock taken and its payment made by then; one seen as `FAILED` never has either. -/
theorem order_views {c c' : Configuration} {userId userId' o : ℕ} {info : OrderModel}
    {x : Exit Error OrderModel} {s s' : Store} (h : Reachable anyStep c)
    (hc : Reaches saga anyStep c c')
    (hr : Effect.Runs Store.exec (OrderFacade.getOrder userId o) c.shared.store (.success info) s)
    (hr' : Effect.Runs Store.exec (OrderFacade.getOrder userId' o) c'.shared.store x s') :
    info.id = o ∧ info.userId = userId ∧
    (x = .failure (.appNotFound ErrorCodes.orderNotFound) ∨
      ∃ status, userId' = userId ∧ x = .success ⟨o, userId, status⟩ ∧ Follows info.status status) ∧
    (∃ status, Effect.Runs Store.exec (OrderFacade.getOrder userId o) c'.shared.store
      (.success ⟨o, userId, status⟩) c'.shared.store) ∧
    (info.status = .paid → .committed (.deductStock o) ∈ c.shared.store.journal ∧
      .committed (.payment o) ∈ c.shared.store.journal) ∧
    (info.status = .failed → .committed (.deductStock o) ∉ c'.shared.store.journal ∧
      .committed (.payment o) ∉ c'.shared.store.journal) := by
  obtain ⟨ph, ph', hph, hph', hle⟩ := SagaOutcomes.stage_rises h hc o
  obtain ⟨hsees, _⟩ := runs_getOrder hr
  cases hsees with
  | @order status hrow =>
    have huser : userOf c.shared.store.db o = some userId := by simp [userOf, hrow]
    have hstatus : ph.orderStatus = some status := by rw [← hph.status, hrow, Option.map_some]
    obtain ⟨status', hstatus', hfollows⟩ := follows_stage hle hstatus
    have hrow' : c'.shared.store.db.order o = some ⟨userId, status'⟩ := by
      have huser' := reaches_user hc huser
      have hmap' := hph'.status.trans hstatus'
      cases hcase : c'.shared.store.db.order o with
      | none => simp [userOf, hcase] at huser'
      | some row =>
        obtain ⟨user, st⟩ := row
        simp only [userOf, hcase, Option.map_some, Option.some.injEq] at huser' hmap'
        rw [huser', hmap']
    refine ⟨rfl, rfl, ?_, ⟨status', getOrder_runs hrow'⟩, fun hpaid => ?_, fun hfailed => ?_⟩
    · obtain ⟨hsees', _⟩ := runs_getOrder hr'
      cases hsees' with
      | order hfound =>
        cases hrow'.symm.trans hfound
        exact .inr ⟨_, rfl, rfl, hfollows⟩
      | notFound => exact .inl rfl
    · obtain rfl : status = .paid := hpaid
      obtain rfl := paid_of hstatus
      exact ⟨(SagaOutcomes.deducted_iff hph).mpr (by decide), (SagaOutcomes.debited_iff hph).mpr (by decide)⟩
    · obtain rfl : status = .failed := hfailed
      obtain rfl := cancelled_of hstatus
      exact ⟨fun hd => cancelled_not_deducted hle ((SagaOutcomes.deducted_iff hph').mp hd),
        fun hp => not_cancelled_and_debited hle ((SagaOutcomes.debited_iff hph').mp hp)⟩

/-- User 7 sees the first order as pending, and later on as paid; user 8 sees nothing of it. -/
theorem order_views_closed : ∃ w w', Reachable anyStep (quiet w) ∧
    Reaches saga anyStep (quiet w) (quiet w') ∧
    (∃ info, Effect.Runs Store.exec (OrderFacade.getOrder 7 1) w.store (.success info) w.store ∧
      info.status = .pendingPayment) ∧
    .committed (.payment 1) ∈ w'.store.journal ∧
    ¬ ∃ info, Effect.Runs Store.exec (OrderFacade.getOrder 8 1) w'.store (.success info) w'.store := by
  obtain ⟨w, hshows, hpublished, hbatches, hoffered⟩ :=
    Purchase.staged_offered (tea_covered 10)
  have hhere : Staged w (tea 10).offered [messageOf firstOrder .orderCreated,
      messageOf firstOrder .orderDeductStock] [] := ⟨w, hshows, hpublished, hbatches, fun _ _ => .refl⟩
  obtain ⟨w', hshows', _, _, hclosed⟩ := Purchase.offered_closes hhere tea_enough
  have hreach : Reachable anyStep (quiet w) := ⟨_, (tea 10).initial, hoffered _ permits_anyStep⟩
  have hlater := hclosed _ permits_anyStep
  have hrow : w.store.db.order 1 = some ⟨7, .pendingPayment⟩ := hshows.order
  have hrow' : w'.store.db.order 1 = some ⟨7, .paid⟩ := hshows'.order
  have hpaid := SagaOutcomes.Reachable.extend hreach hlater
  obtain ⟨_, _, _, _, hmade, _⟩ := order_views hpaid .refl (getOrder_runs hrow') (getOrder_runs hrow')
  refine ⟨w, w', hreach, hlater, ⟨_, getOrder_runs hrow, rfl⟩, (hmade rfl).2, fun ⟨info, hinfo⟩ => ?_⟩
  obtain ⟨_, _, hfail | ⟨_, huser, _⟩, _⟩ := order_views hreach hlater (getOrder_runs hrow) hinfo
  · cases hfail
  · cases huser

end EcommerceService.OrderViews
