import EcommerceService.Announcements
import EcommerceService.Deduction
import EcommerceService.OrderData
import EcommerceService.Redelivery
import EcommerceService.SagaOutcomes

namespace EcommerceService.Completion

open EcommerceService.Effects EcommerceService.Errors EcommerceService.Models
open EcommerceService.Database EcommerceService.Repositories EcommerceService.Backend
open EcommerceService.Services EcommerceService.Facades EcommerceService.OutboxPolling
open EcommerceService.Pool EcommerceService.OrderLife EcommerceService.TransactionEffects
open EcommerceService.StockEffects EcommerceService.Saga EcommerceService.SagaCalls
open EcommerceService.SagaInvariant EcommerceService.SagaSafety EcommerceService.SagaOutcomes
open EcommerceService.OrderData
open EcommerceService.SagaRuns (Purchase Scene permits_anyStep tea tea_covered rowKey)
open EcommerceService.Restoration (tryPromise_settles body_settles)
open EcommerceService.Redelivery (Reliable Short answering_fairly fairly short_iff)

section Items

def Filled (db : Tables) : Prop := ∀ info, Recorded info db → info.orderItems ≠ []

variable {info : CreateOrderInfo} {s t : Store} {w w' : World} {job : Job}

theorem runs_filled {userId : ℕ} {commands : List CreateOrderItemCommand}
    (h : Effect.Runs Store.exec
      ((OrderService.createOrder userId commands).flatMap OrderFacade.createOutboxEvent) s
      (.success info) t) : commands ≠ [] := by
  obtain ⟨_, _, hcreate, _⟩ := Effect.runs_flatMap_success.mp h
  obtain ⟨_, _, _, hmodels⟩ := Effect.runs_flatMap_success.mp hcreate
  obtain ⟨_, hmany, _⟩ := Effect.runs_map_success.mp hmodels
  obtain ⟨_, _, _, hparams, _⟩ := runs_createMany hmany
  rintro rfl
  cases hparams

theorem Filled.same (h : Filled s.db) (hs : SameData s.db t.db) : Filled t.db :=
  fun info hr => h info (hs.recorded.mp hr)

theorem Filled.note {o : ℕ} {ty : OutboxEventType} {payload : Json} {status : OutboxEventStatus}
    {row : OutboxEventRow} (h : Filled s.db) (hty : ty ≠ .orderCreated)
    (hexec : Store.exec (.createOutboxEvent (aggregateId o, ty) payload status) s (some row) t) :
    Filled t.db := by
  obtain ⟨_, _, _, hpayload⟩ := exec_createOutboxEvent hexec
  refine fun info hr => h info ?_
  have hkey : createdKey info.order.id ≠ (aggregateId o, ty) := by
    rintro hkey
    exact hty (Prod.mk.inj hkey).2.symm
  rwa [Recorded, hpayload, Function.update_of_ne hkey] at hr

theorem statement_filled {q : Query} {v : q.Answer} (h : Makes job (.statement q))
    (hs : Filled s.db) (hexec : Store.exec q s (some v) t) : Filled t.db := by
  cases h with
  | outOfStock _ _ => exact hs.note (by rintro ⟨⟩) hexec
  | paymentFailed _ _ => exact hs.note (by rintro ⟨⟩) hexec
  | findOrderCreated _ _ => exact hs.same (exec_sameData id hexec)
  | setInit _ _ => exact hs.same (exec_sameData id hexec)
  | success => exact hs.same (exec_sameData id hexec)
  | failOrder _ _ => exact hs.same (exec_sameData id hexec)
  | failed => exact hs.same (exec_sameData id hexec)

theorem commit_filled {kind : TransactionKind} {A : Type} {body : Statements A} {a : A}
    (h : Makes job (.transaction kind A body)) (hrows : Matching s.db) (hs : Filled s.db)
    (hr : Effect.Runs Store.exec body s (.success a) t) : Filled t.db := by
  cases h with
  | order =>
    have hrun := runs_effectWithTransaction.mp hr
    have hplaced := runs_placed hrun
    intro info hrecorded
    obtain rfl | ⟨_, hold⟩ := hplaced.recorded_cases hrecorded
    · rintro hnil
      have hperm := hplaced.orderItems
      rw [hnil, hplaced.itemsOf hrows] at hperm
      have hempty := List.nil_perm.mp hperm
      exact runs_filled hrun (by simpa [rowsOf] using hempty)
    · exact hs info hold
  | deductStock _ _ =>
    obtain ⟨u, _, hdeduct, hemit⟩ := Effect.runs_tap_success.mp (runs_effectWithTransaction.mp hr)
    obtain ⟨row, hrow⟩ := runs_createOutboxEvent hemit
    have hsame := confined_sameData (deductStock_confined _) (fun _ => onStock_inserts) hdeduct
    exact (hs.same hsame).note (by rintro ⟨⟩) hrow
  | payment _ _ =>
    obtain ⟨u, _, hpay, hemit⟩ := Effect.runs_tap_success.mp (runs_effectWithTransaction.mp hr)
    obtain ⟨row, hrow⟩ := runs_createOutboxEvent hemit
    have hsame := confined_sameData (completePayment_confined _ _) (fun _ => onWallet_inserts) hpay
    exact (hs.same hsame).note (by rintro ⟨⟩) hrow
  | orderSuccess _ _ =>
    obtain ⟨u, _, row, hset, hrow⟩ := runs_succeeding (runs_effectWithTransaction.mp hr)
    exact (hs.same (exec_sameData id hset)).note (by rintro ⟨⟩) hrow
  | restore _ _ =>
    exact hs.same (confined_sameData (restoring_confined _) (fun _ => onStock_inserts)
      (runs_effectWithTransaction.mp hr))

theorem exec_filled {q : Call} {r : q.Reply} (h : Makes job q) (hrows : Matching w.store.db)
    (hw : Filled w.store.db) (hexec : World.exec q w r w') : Filled w'.store.db := by
  cases World.exec_change hexec with
  | same => exact hw
  | publish => exact hw
  | statement hq => exact statement_filled h hw hq
  | commit hr =>
    have hfilled := commit_filled h hrows hw hr
    exact hfilled

theorem step_filled {c c' : Configuration} {l : Action} (h : Steady c) (hw : Filled c.shared.store.db)
    (hs : Step saga c l c') : Filled c'.shared.store.db := by
  cases l with
  | env =>
    cases hs with
    | env henv =>
      obtain ⟨_, _, _, rfl⟩ := henv
      exact hw
  | start i job =>
    cases hs with
    | start _ hstart =>
      rw [(start_journal hstart).1]
      exact hw
  | call i q r =>
    obtain ⟨job, hmakes, _⟩ := h.made hs
    cases hs with
    | call _ hexec => exact exec_filled hmakes h.faithful.rows hw hexec
  | stop i =>
    cases hs with
    | stop => exact hw

theorem reachable_filled {c : Configuration} (h : Reachable anyStep c) :
    Steady c ∧ Filled c.shared.store.db := by
  obtain ⟨w, hinit, hreach⟩ := h
  induction hreach with
  | refl =>
    refine ⟨.initial hinit, fun info hr => ?_⟩
    simp [Recorded, payloadOf, hinit.outboxEvent, quiet] at hr
  | tail _ hn ih =>
    obtain ⟨l, hs, _⟩ := hn
    exact ⟨ih.1.step hs, step_filled ih.1 ih.2 hs⟩

end Items

section Batches

variable {s : Store} {key : OutboxKey} {row : OutboxEventRow} {status : OutboxEventStatus}

theorem rows_finite (h : Lives s) : {key | s.db.outboxEvent key ≠ none}.Finite := by
  let created : Event → Option OutboxKey
    | .created key _ => some key
    | _ => none
  refine (List.finite_toSet (s.journal.filterMap created)).subset (fun key hkey => ?_)
  obtain ⟨row, hrow⟩ := Option.ne_none_iff_exists'.mp hkey
  obtain ⟨aggregate, ty⟩ := key
  obtain ⟨o, rfl⟩ := h.keys _ row hrow
  obtain ⟨ph, hph⟩ := h.stage o
  obtain ⟨_, status, hcreated, _⟩ := hph.present ty row hrow
  exact List.mem_filterMap.mpr ⟨_, (hph.recorded ty status).mpr hcreated, rfl⟩

theorem batch_exists (h : Lives s) (hrow : s.db.outboxEvent key = some row)
    (hstatus : row.status = status) :
    ∃ rows, FindEventsByStatus s.db status rows ∧ (key, row) ∈ rows := by
  let matching : Set (OutboxKey × OutboxEventRow) :=
    {e | s.db.outboxEvent e.1 = some e.2 ∧ e.2.status = status}
  have hinj : Set.InjOn Prod.fst matching := by
    rintro ⟨key, row⟩ ⟨hrow, _⟩ ⟨key', row'⟩ ⟨hrow', _⟩ rfl
    cases hrow.symm.trans hrow'
    rfl
  have hfin : matching.Finite := by
    refine Set.Finite.of_finite_image ((rows_finite h).subset ?_) hinj
    rintro _ ⟨e, ⟨he, _⟩, rfl⟩
    simp [he]
  let others := hfin.toFinset.toList.erase (key, row)
  have hothers : ∀ e, e ∈ others ↔ e ≠ (key, row) ∧ e ∈ matching := fun e => by
    rw [List.Nodup.mem_erase_iff (Finset.nodup_toList _), Finset.mem_toList, Set.Finite.mem_toFinset]
  have hall : ∀ e, e ∈ (key, row) :: others ↔ e ∈ matching := by
    intro e
    rw [List.mem_cons, hothers]
    by_cases he : e = (key, row)
    · simpa [he] using ⟨hrow, hstatus⟩
    · simp [he]
  have hnodup : (((key, row) :: others).map Prod.fst).Nodup := by
    refine List.Nodup.map_on (fun e he e' he' => hinj ((hall e).mp he) ((hall e').mp he'))
      (List.nodup_cons.mpr ⟨fun hmem => ((hothers _).mp hmem).1 rfl, ?_⟩)
    exact (Finset.nodup_toList _).erase _
  refine ⟨((key, row) :: others).take 500, ⟨List.length_take_le _ _, ?_, fun e he => ?_,
    fun hlt key' row' hrow' hstatus' => ?_⟩, by simp⟩
  · rw [List.map_take]
    exact hnodup.sublist (List.take_sublist _ _)
  · exact (hall e).mp (List.mem_of_mem_take he)
  · have hshort : ((key, row) :: others).length ≤ 500 := by
      rw [List.length_take] at hlt
      omega
    rw [List.take_of_length_le hshort]
    exact (hall _).mpr ⟨hrow', hstatus'⟩

end Batches

/-- A call that does not fail by itself, and a message that Kafka takes. -/
def Smooth : (c : Call) → World → c.Reply → Prop
  | .statement q, w, r => Reliable (.statement q) w r
  | .transaction kind A body, w, r => Reliable (.transaction kind A body) w r
  | .emit _ _ _, _, sent => sent = true

def resultType : OutboxEventType → Option OutboxEventType
  | .orderCreated => some .orderDeductStock
  | .orderDeductStock => some .orderPayment
  | .orderPayment => some .orderSuccess
  | _ => none

/-- What is still to be done: an event that was read, or a message of which no result is
recorded. -/
def Due (w : World) : Job → Prop
  | .order _ _ => False
  | .message m => ∀ info ty, orderInfoOf (received m.value) = some info → resultType m.eventType = some ty →
      w.store.db.outboxEvent (aggregateId info.order.id, ty) = none
  | .event _ _ => True

/-- Every call goes smoothly, a process only stops at its end, and only what is due is begun. That
includes a message whose offset has been committed: it is to be delivered again. -/
def Unhindered (c : Configuration) : Action → Prop
  | .env => True
  | .start _ job => Due c.shared job
  | .call _ q r => Smooth q c.shared r
  | .stop i => ∀ job q k, c.pool i ≠ some (job, .perform q k)

abbrev SmoothRuns {E A : Type} (p : Effect Call Call.Reply E A) (w : World) (x : Exit E A)
    (t : World) : Prop := RunsBy Smooth p w x t

section Steps

variable {E A : Type}

theorem fairly_exec {p : Effect Query (fun q => Option q.Answer) E A} {s u : Store} {x : Exit E A}
    (h : Effect.Runs fairly p s x u) : Effect.Runs Store.exec p s x u := h.mono (fun _ _ _ _ h => h.1)

variable {B : Type}

theorem settled_fairly {effect : Statements B} (h : effect.Settles) (s : Store) :
    (∃ b u, Effect.Runs fairly (PrismaService.effectWithTransaction effect) s (.success b) u) ∨
    ∃ e u, Effect.Runs fairly (PrismaService.effectWithTransaction effect) s (.failure e) u := by
  have htotal : ∀ (q : Query) (s : Store), ∃ r u, fairly q s r u := by
    intro q s
    by_cases hq : ∃ v, q.Allows s.db v
    · obtain ⟨v, hv⟩ := hq
      exact ⟨some v, _, answering_fairly q s v hv⟩
    · exact ⟨none, s, rfl, fun _ v hv => hq ⟨v, hv⟩⟩
  obtain ⟨x, u, hr⟩ := Effect.runs_exists (PrismaService.effectWithTransaction effect) htotal s
  cases x with
  | success b => exact .inl ⟨b, u, hr⟩
  | failure e => exact .inr ⟨e, u, hr⟩
  | defect => exact absurd rfl ((body_settles h).runs hr)

end Steps

section Handlings

variable {info : CreateOrderInfo} {w : World}

theorem processOrderDeductStock_run (hitems : info.orderItems ≠ [])
    (hnew : w.store.db.outboxEvent (aggregateId info.order.id, .orderDeductStock) = none) :
    ∃ x w', SmoothRuns (ProductFacade.processOrderDeductStock info) w x w' ∧
      w'.store.db.outboxEvent (aggregateId info.order.id, .orderDeductStock) ≠ none := by
  by_cases hshort : Short info w.store.db
  · have hbody := deducting_rejected answering_fairly hitems hshort
    exact ⟨.success (), _, reject_then ⟨outOfStock, _, rfl, hbody⟩ (fairly_exec hbody)
      (statement_then _ (by rintro ⟨⟩) ⟨hnew, rfl⟩ (.succeed _ _)), by
      simp [Store.after, Query.apply]⟩
  · obtain ⟨u, _, hdeducting⟩ := deducting_run answering_fairly hitems hshort hnew
    have hbody := runs_effectWithTransaction.mpr hdeducting
    refine ⟨.success (), _, commit_then ⟨_, hbody⟩ (fairly_exec hbody) (.succeed _ _), ?_⟩
    simp [World.commit, Store.after, Query.apply]

theorem paying_settles (info : CreateOrderInfo) : (UserFacade.paying info).Settles := by
  have hread : (WalletRepository.getByUserId info.order.userId).Settles :=
    (tryPromise_settles _).map.catchAll (fun _ => Effect.settles_fail)
  have hpayable : ∀ wallet : WalletModel,
      (wallet.payable info.totalAmount : Statements Bool).Settles := by
    intro wallet
    rw [WalletModel.payable]
    split
    · exact Effect.settles_succeed
    · exact Effect.settles_fail
  have hwallet := (hread.flatMap (fun wallet => (hpayable wallet).map (f := fun _ => wallet))).flatMap
    (fun wallet => (tryPromise_settles (.createPoint ⟨wallet.id, -info.totalAmount, .use⟩)).map
      (f := fun _ => wallet))
  have hpayment : (UserFacade.payment info).Settles := by
    refine (hwallet.flatMap (fun wallet => ?_)).catchAll (fun e => ?_)
    · exact (tryPromise_settles _).map.catchAll (fun _ => Effect.settles_fail)
    · split
      · exact Effect.settles_fail
      · exact Effect.settles_fail
  exact hpayment.flatMap (fun _ => (tryPromise_settles _).map.map)

theorem processOrderPayment_run
    (hnew : w.store.db.outboxEvent (aggregateId info.order.id, .orderPayment) = none) :
    ∃ x w', SmoothRuns (UserFacade.processOrderPayment info) w x w' ∧
      w'.store.db.outboxEvent (aggregateId info.order.id, .orderPayment) ≠ none := by
  obtain ⟨wallet, u, hbody⟩ | ⟨e, u, hbody⟩ := settled_fairly (paying_settles info) w.store
  · refine ⟨.success (), _, commit_then ⟨u, hbody⟩ (fairly_exec hbody) (.succeed _ _), ?_⟩
    obtain ⟨_, row, _, ⟨⟨_, rfl⟩, rfl⟩⟩ :=
      runs_paying (runs_effectWithTransaction.mp (fairly_exec hbody))
    simp [World.commit, Store.after, Query.apply]
  · exact ⟨.success (), _, reject_then ⟨e, u, rfl, hbody⟩ (fairly_exec hbody)
      (statement_then _ (by rintro ⟨⟩) ⟨hnew, rfl⟩ (.succeed _ _)), by
      simp [Store.after, Query.apply]⟩

theorem processOrderSuccess_run {row : OrderRow} (horder : w.store.db.order info.order.id = some row)
    (hnew : w.store.db.outboxEvent (aggregateId info.order.id, .orderSuccess) = none) :
    ∃ x w', SmoothRuns (OrderFacade.processOrderSuccess info).asVoid w x w' ∧
      w'.store.db.outboxEvent (aggregateId info.order.id, .orderSuccess) ≠ none := by
  have hbody : Effect.Runs fairly (PrismaService.effectWithTransaction
      ((OrderService.updateOrderStatus info.order.id .paid).tap
        (fun _ => OrderFacade.orderSuccessEvent info))) w.store (.success _) _ :=
    query_then answering_fairly row horder (query_then answering_fairly _ ⟨row, horder, rfl⟩
      (query_then answering_fairly _ ⟨hnew, rfl⟩ (.succeed _ _)))
  refine ⟨.success (), _, commit_then ⟨_, hbody⟩ (fairly_exec hbody) (.succeed _ _), ?_⟩
  simp [World.commit, Store.after, Query.apply]

theorem cancel_run {status : OutboxEventStatus} {order : OrderRow} {row : OutboxEventRow}
    (horder : w.store.db.order info.order.id = some order)
    (hrow : w.store.db.outboxEvent (aggregateId info.order.id, .orderDeductStock) = some row) :
    ∃ x w', SmoothRuns
        (Poll.handle .handleFailedEvents (readEvent info .orderDeductStock status)) w x w' ∧
      .orderSet info.order.id .failed ∈ w'.store.journal := by
  refine ⟨.success (), _, statement_then { order with status := .failed } (by rintro ⟨⟩) ⟨order, horder, rfl⟩
    (statement_then _ (by rintro ⟨⟩) ⟨row, hrow, rfl⟩ (.succeed _ _)), ?_⟩
  exact List.mem_append_left _ (List.mem_append_right _ List.mem_cons_self)

theorem publish_run {ty : OutboxEventType} {status : OutboxEventStatus} {row : OutboxEventRow}
    (hty : ReArm.HasProducer ty)
    (hrow : w.store.db.outboxEvent (aggregateId info.order.id, ty) = some row) :
    ∃ x w', SmoothRuns (Poll.handle .handleInitEvents (readEvent info ty status)) w x w' ∧
      Announcements.Announced info.order.id ty w' := by
  have hsent : ∀ w' : World, w'.published =
      w.published ++ [⟨ty, info.order.id, (Json.order info).stringify.stringify⟩] →
      Announcements.Announced info.order.id ty w' := by
    intro w' hw'
    exact ⟨_, hw' ▸ List.mem_append_right _ List.mem_cons_self, rfl, rfl, info, rfl, rfl⟩
  have hruns : ∃ w', SmoothRuns (Poll.handle .handleInitEvents (readEvent info ty status)) w
      (.success ()) w' ∧ w'.published =
        w.published ++ [⟨ty, info.order.id, (Json.order info).stringify.stringify⟩] := by
    rcases hty with rfl | rfl | rfl
    all_goals exact ⟨_, publish_then rfl (statement_then _ (by rintro ⟨⟩) ⟨row, hrow, rfl⟩ (.succeed _ _)), rfl⟩
  obtain ⟨w', hr, hpublished⟩ := hruns
  exact ⟨_, w', hr, hsent w' hpublished⟩

end Handlings

section Runs

variable {c c' : Configuration} {o : ℕ} {ph : Phase} {ty : OutboxEventType}

theorem Reachable.unhindered (h : Reachable anyStep c) (hc : Reaches saga Unhindered c c') :
    Reachable anyStep c' :=
  Reachable.extend h (Relation.ReflTransGen.mono (fun _ _ ⟨l, hs, _⟩ => ⟨l, hs, trivial⟩) _ _ hc)

theorem job_reaches (job : Job) {w w' : World} {x : Exit Error Unit} (h : Reachable anyStep c)
    (hs : job.start c.shared w) (hdue : Due c.shared job) (hr : SmoothRuns job.program w x w') :
    Reaches saga Unhindered c ⟨w', c.pool⟩ := by
  obtain ⟨_, _, hreach⟩ := h
  obtain ⟨i, hi⟩ := hreach.exists_free
  refine Reaches.alone (i := i) .refl hi hs hr hdue (fun _ _ _ _ hgood => hgood) ?_
  intro w p hp job' q k hpool
  have hself : Function.update c.pool i (some (job, p)) i = some (job', .perform q k) := hpool
  rw [Function.update_self] at hself
  exact hp q k (Prod.mk.inj (Option.some.inj hself)).2

theorem event_reaches (poll : Poll) {key : OutboxKey} {row : OutboxEventRow}
    (h : Reachable anyStep c) (hrow : c.shared.store.db.outboxEvent key = some row)
    (hstatus : row.status = poll.status) {P : World → Prop}
    (hrun : ∀ w, w.store = c.shared.store →
      ∃ x w', SmoothRuns (poll.handle (OutboxEventModel.from key row)) w x w' ∧ P w') :
    ∃ c', Reaches saga Unhindered c c' ∧ P c'.shared := by
  obtain ⟨rows, hread, hmem⟩ := batch_exists (reachable_consistent h).lives hrow hstatus
  let w := c.shared.read poll rows
  let e := OutboxEventModel.from key row
  have hpoll : pollEvents c.shared w := ⟨poll, rows, hread, rfl⟩
  have hreads : Reaches saga Unhindered c ⟨w, c.pool⟩ := Reaches.env .refl hpoll trivial
  have hbatch : (poll, e) ∈ w.batches :=
    List.mem_append_right _ (List.mem_map.mpr ⟨(key, row), hmem, rfl⟩)
  obtain ⟨x, w', hr, hP⟩ := hrun { w with batches := w.batches.erase (poll, e) } rfl
  have hhandles := job_reaches (.event poll e) (Reachable.unhindered h hreads) ⟨hbatch, rfl⟩ trivial hr
  exact ⟨_, hreads.trans hhandles, hP⟩

theorem announced (h : Reachable anyStep c) (hty : ReArm.HasProducer ty)
    (hborn : Born o ty .init c.shared.store.journal) :
    ∃ c', Reaches saga Unhindered c c' ∧ Announcements.Announced o ty c'.shared := by
  have htold := Announcements.reachable_told h
  obtain ⟨row, hrow, hinit | hsuccess⟩ := htold.consistent.lives.born_row hborn
  · obtain ⟨ph, hph⟩ := stage h o
    obtain ⟨⟨info, hpayload, rfl⟩, _⟩ := hph.present ty row hrow
    have hevent : OutboxEventModel.from (aggregateId info.order.id, ty) row =
        readEvent info ty row.status := by
      rw [OutboxEventModel.from, hpayload]
      rfl
    refine event_reaches .handleInitEvents h hrow hinit (fun w hw => ?_)
    rw [hevent]
    exact publish_run hty (hw ▸ hrow)
  · exact ⟨c, .refl, htold.done o ty row .init hrow hsuccess hborn hty⟩

theorem message_reaches {facade : CreateOrderInfo → Service Unit} {ty' : OutboxEventType}
    (h : Reachable anyStep c) (hsent : Announcements.Announced o ty c.shared)
    (hresult : resultType ty = some ty') (hnone : c.shared.store.db.outboxEvent (aggregateId o, ty') = none)
    (hfacade : ∀ m info, m.eventType = ty → orderInfoOf (received m.value) = some info →
      (Job.message m).program = facade info) {P : World → Prop}
    (hrun : ∀ info, info.order.id = o → info.orderItems ≠ [] →
      ∃ x w', SmoothRuns (facade info) c.shared x w' ∧ P w') :
    ∃ c', Reaches saga Unhindered c c' ∧ P c'.shared := by
  obtain ⟨m, hm, hty, _, info, hinfo, ho⟩ := hsent
  obtain ⟨hsteady, hfilled⟩ := reachable_filled h
  have hitems := hfilled info (hsteady.faithful.message m hm info hinfo)
  obtain ⟨x, w', hr, hP⟩ := hrun info ho hitems
  have hdue : Due c.shared (.message m) := by
    intro info' ty'' hinfo' hty''
    cases hinfo.symm.trans hinfo'
    rw [hty, hresult] at hty''
    cases hty''
    exact ho ▸ hnone
  rw [← hfacade m info hty hinfo] at hr
  exact ⟨_, job_reaches (.message m) h ⟨hm, rfl⟩ hdue hr, hP⟩

theorem rises (h : Reachable anyStep c) (hph : Life c.shared.store o ph)
    (hc : Reaches saga Unhindered c c') : ∃ ph', Life c'.shared.store o ph' ∧ ph ≤ ph' := by
  have hreach : Reaches saga anyStep c c' :=
    Relation.ReflTransGen.mono (fun _ _ ⟨l, hs, _⟩ => ⟨l, hs, trivial⟩) _ _ hc
  obtain ⟨ph₀, ph', hph₀, hph', hle⟩ := stage_rises h hreach o
  cases hph.accepted.symm.trans hph₀.accepted
  exact ⟨ph', hph', hle⟩

theorem Life.row_absent {s : Store} (h : Life s o ph) (hty : ph.createdAs ty = none) :
    s.db.outboxEvent (aggregateId o, ty) = none := by
  by_contra hrow
  obtain ⟨row, hrow⟩ := Option.ne_none_iff_exists'.mp hrow
  obtain ⟨_, status, hcreated, _⟩ := h.present ty row hrow
  cases hty.symm.trans hcreated

theorem handled (facade : CreateOrderInfo → Service Unit) (ty' : OutboxEventType)
    (h : Reachable anyStep c) (hph : Life c.shared.store o ph) (hty : ReArm.HasProducer ty)
    (hinit : ph.createdAs ty = some .init) (hresult : resultType ty = some ty')
    (hnone : ph.createdAs ty' = none)
    (hfacade : ∀ m info, m.eventType = ty → orderInfoOf (received m.value) = some info →
      (Job.message m).program = facade info)
    (hrun : ∀ info w, info.order.id = o → info.orderItems ≠ [] → Life w.store o ph →
      ∃ x w', SmoothRuns (facade info) w x w' ∧
        w'.store.db.outboxEvent (aggregateId o, ty') ≠ none) :
    ∃ c' ph', Reaches saga Unhindered c c' ∧ Life c'.shared.store o ph' ∧ ph ≤ ph' ∧ ph ≠ ph' := by
  obtain ⟨c₁, h₁, hsent⟩ := announced h hty ((hph.recorded _ _).mpr hinit)
  have hreach₁ := Reachable.unhindered h h₁
  obtain ⟨ph₁, hph₁, hle₁⟩ := rises h hph h₁
  by_cases hph₀ : ph = ph₁
  · subst hph₀
    let P (w : World) : Prop := w.store.db.outboxEvent (aggregateId o, ty') ≠ none
    obtain ⟨c₂, h₂, hrow⟩ := message_reaches (P := P) hreach₁ hsent hresult
      (Life.row_absent hph₁ hnone) hfacade
      (fun info ho hitems => hrun info c₁.shared ho hitems hph₁)
    obtain ⟨ph₂, hph₂, hle₂⟩ := rises hreach₁ hph₁ h₂
    refine ⟨c₂, ph₂, h₁.trans h₂, hph₂, hle₂, ?_⟩
    rintro rfl
    exact hrow (Life.row_absent hph₂ hnone)
  · exact ⟨c₁, ph₁, h₁, hph₁, hle₁, hph₀⟩

theorem cancelled (h : Reachable anyStep c) (hph : Life c.shared.store o .rejected) :
    ∃ c', Reaches saga Unhindered c c' ∧ Life c'.shared.store o .cancelled := by
  have htold := Announcements.reachable_told h
  have hborn : Born o .orderDeductStock .fail c.shared.store.journal :=
    (hph.recorded _ _).mpr rfl
  obtain ⟨row, hrow, hfail | hsuccess⟩ := htold.consistent.lives.born_row hborn
  · obtain ⟨⟨info, hpayload, rfl⟩, _⟩ := hph.present _ row hrow
    obtain ⟨order, horder, _⟩ := Option.map_eq_some_iff.mp hph.status
    have hevent : OutboxEventModel.from (aggregateId info.order.id, .orderDeductStock) row =
        readEvent info .orderDeductStock row.status := by
      rw [OutboxEventModel.from, hpayload]
      rfl
    let P (w : World) : Prop := .orderSet info.order.id .failed ∈ w.store.journal
    obtain ⟨c', hc, hset⟩ := event_reaches (P := P) .handleFailedEvents h hrow hfail (fun w hw => by
      rw [hevent]
      exact cancel_run (hw ▸ horder) (hw ▸ hrow))
    obtain ⟨ph', hph', _⟩ := rises h hph hc
    exact ⟨c', hc, Announcements.cancelled_stage hph' hset ▸ hph'⟩
  · have hset := htold.done o .orderDeductStock row .fail hrow hsuccess hborn rfl
    cases Announcements.cancelled_stage hph hset

def Pending (ph : Phase) : Prop := ph = .placed ∨ ph = .rejected ∨ ph = .deducted ∨ ph = .debited

theorem advances (h : Reachable anyStep c) (hph : Life c.shared.store o ph) (hpending : Pending ph) :
    ∃ c' ph', Reaches saga Unhindered c c' ∧ Life c'.shared.store o ph' ∧ ph ≤ ph' ∧ ph ≠ ph' := by
  rcases hpending with rfl | rfl | rfl | rfl
  · refine handled ProductFacade.processOrderDeductStock .orderDeductStock h hph (.inl rfl) rfl rfl rfl
      (fun m info => Redelivery.handle_eq) (fun info w ho hitems hlife => ?_)
    subst ho
    exact processOrderDeductStock_run hitems (Life.row_absent hlife rfl)
  · obtain ⟨c', hc, hph'⟩ := cancelled h hph
    exact ⟨c', .cancelled, hc, hph', by decide, by rintro ⟨⟩⟩
  · refine handled UserFacade.processOrderPayment .orderPayment h hph (.inr (.inl rfl)) rfl rfl rfl
      (fun m info hty hinfo => by simp only [Job.program, hty, handleDeductStock, withOrderInfo, hinfo])
      (fun info w ho hitems hlife => ?_)
    subst ho
    exact processOrderPayment_run (Life.row_absent hlife rfl)
  · refine handled (fun info => (OrderFacade.processOrderSuccess info).asVoid) .orderSuccess h hph
      (.inr (.inr rfl)) rfl rfl rfl
      (fun m info hty hinfo => by simp only [Job.program, hty, handleOrderPayment, withOrderInfo, hinfo])
      (fun info w ho hitems hlife => ?_)
    subst ho
    obtain ⟨order, horder, _⟩ := Option.map_eq_some_iff.mp hlife.status
    exact processOrderSuccess_run horder (Life.row_absent hlife rfl)

theorem rank_rises {ph' : Phase} (hle : ph ≤ ph') (hne : ph ≠ ph') :
    ph.past.length < ph'.past.length := by
  cases ph <;> cases ph' <;>
    first | exact absurd rfl hne | exact absurd hle (by decide) | decide

/-- An order goes on until nothing is to be done for it. -/
theorem finished (h : Reachable anyStep c) (hph : Life c.shared.store o ph) :
    ∃ c' ph', Reaches saga Unhindered c c' ∧ Life c'.shared.store o ph' ∧ ph ≤ ph' ∧ ¬ Pending ph' := by
  induction hn : 5 - ph.past.length using Nat.strong_induction_on generalizing c ph with
  | _ n ih =>
    by_cases hpending : Pending ph
    · obtain ⟨c₁, ph₁, h₁, hph₁, hle₁, hne⟩ := advances h hph hpending
      have hrank := rank_rises hle₁ hne
      have hbound : ph₁.past.length ≤ 5 := by cases ph₁ <;> decide
      obtain ⟨c₂, ph₂, h₂, hph₂, hle₂, hend⟩ :=
        ih (5 - ph₁.past.length) (by omega) (Reachable.unhindered h h₁) hph₁ rfl
      exact ⟨c₂, ph₂, h₁.trans h₂, hph₂, hle₁.trans hle₂, hend⟩
    · exact ⟨c, ph, .refl, hph, le_refl ph, hpending⟩

/-- The order is paid or cancelled, or its payment is recorded as failed. -/
def Ended (c : Configuration) (o : ℕ) : Prop :=
  orderStatus c o = some .paid ∨ orderStatus c o = some .failed ∨
    .created (aggregateId o, .orderPayment) .fail ∈ c.shared.store.journal

theorem ended_iff (hph : Life c.shared.store o ph) :
    Ended c o ↔ ph ≠ .absent ∧ ¬ Pending ph := by
  have hstatus : orderStatus c o = ph.orderStatus := hph.status
  rw [Ended, hstatus, hph.recorded]
  cases ph <;> simp [Phase.orderStatus, Phase.createdAs, Pending]

theorem ended_last {ph' : Phase} (hend : ph ≠ .absent ∧ ¬ Pending ph) (hle : ph ≤ ph') : ph' = ph := by
  cases ph <;> simp [Pending] at hend <;> cases ph' <;>
    first | rfl | exact absurd hle (by decide)

theorem Ended.stays (h : Reachable anyStep c) (hend : Ended c o)
    (hc : Reaches saga Unhindered c c') : Ended c' o := by
  obtain ⟨ph, hph⟩ := stage h o
  obtain ⟨ph', hph', hle⟩ := rises h hph hc
  have hlast := (ended_iff hph).mp hend
  obtain rfl := ended_last hlast hle
  exact (ended_iff hph').mpr hlast

theorem orders_finite (h : Reachable anyStep c) : {o | orderStatus c o ≠ none}.Finite := by
  have hkeys := rows_finite (reachable_consistent h).lives
  have hinj : Set.InjOn createdKey (Set.preimage createdKey
      {key | c.shared.store.db.outboxEvent key ≠ none}) := by
    intro o _ o' _ hkey
    exact aggregateId_inj.mp (Prod.mk.inj hkey).1
  refine (hkeys.preimage hinj).subset (fun o ho => ?_)
  obtain ⟨ph, hph⟩ := stage h o
  have hstatus : orderStatus c o = ph.orderStatus := hph.status
  intro hrow
  have hnone := hph.absent .orderCreated hrow
  cases ph <;> simp_all [Phase.orderStatus, Phase.createdAs]

/-- No state of the tables and of Kafka is a dead end: from every state of the saga, whatever was
retried or interrupted before, and as long as a published message of which no result is recorded can
be delivered again, the calls can go on smoothly until every order that was placed is paid or
cancelled, or its payment is recorded as failed. -/
theorem no_order_stuck (h : Reachable anyStep c) :
    ∃ c', Reaches saga Unhindered c c' ∧ ∀ o, orderStatus c o ≠ none → Ended c' o := by
  let orders := (orders_finite h).toFinset.toList
  have hreach : ∀ (o : ℕ) (c₁ : Configuration), Reaches saga Unhindered c c₁ →
      ∃ c₂, Reaches saga Unhindered c₁ c₂ ∧ (orderStatus c o ≠ none → Ended c₂ o) := by
    intro o c₁ h₁
    obtain ⟨ph, hph⟩ := stage h o
    obtain ⟨ph₁, hph₁, hle₁⟩ := rises h hph h₁
    obtain ⟨c₂, ph₂, h₂, hph₂, hle₂, hend⟩ := finished (Reachable.unhindered h h₁) hph₁
    refine ⟨c₂, h₂, fun hplaced => (ended_iff hph₂).mpr ⟨?_, hend⟩⟩
    rintro rfl
    have hle := hle₁.trans hle₂
    obtain rfl : ph = .absent := by cases ph <;> first | rfl | exact absurd hle (by decide)
    exact hplaced hph.status
  obtain ⟨c', hc, hall⟩ := Reaches.goals (Reaches saga Unhindered c)
    (fun o c₁ => orderStatus c o ≠ none → Ended c₁ o) (fun _ _ => .trans) hreach
    (fun o c₁ c₂ h₁ h₂ hend hplaced => (hend hplaced).stays (Reachable.unhindered h h₁) h₂) orders
    .refl
  exact ⟨c', hc, fun o ho => hall o (by simpa [orders] using ho) ho⟩

/-- The stock of the first order is taken, and nothing else is done for it yet. -/
theorem no_order_stuck_taken : ∃ c : Configuration, Reachable anyStep c ∧ ¬ Ended c 1 ∧
    ∃ c', Reaches saga Unhindered c c' ∧ Ended c' 1 := by
  obtain ⟨w, hshows, _, _, hstaged⟩ :=
    (Purchase.staged_taken (tea_covered 10)).reached (tea 10).initial
  have hreach := hstaged _ permits_anyStep
  have hpending : orderStatus (quiet w) 1 = some .pendingPayment := by
    have horder : w.store.db.order 1 = some ⟨7, .pendingPayment⟩ := hshows.order
    show (w.store.db.order 1).map (·.status) = _
    rw [horder]
    rfl
  have hopen : ¬ Ended (quiet w) 1 := by
    have hjournal : (quiet w : Configuration).shared.store.journal = _ := hshows.journal
    rw [Ended, hpending, hjournal]
    simp [Scene.taken, Scene.sent, Scene.mark, Scene.log, Scene.create, Scene.lessened,
      Purchase.placed, rowKey]
  obtain ⟨c', hc, hend⟩ := no_order_stuck hreach
  exact ⟨_, hreach, hopen, c', hc, hend 1 (by simp [hpending])⟩

end Runs

end EcommerceService.Completion
