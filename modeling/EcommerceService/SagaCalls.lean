import EcommerceService.Saga
import EcommerceService.TransactionEffects

namespace EcommerceService.SagaCalls

open EcommerceService.Effects EcommerceService.Errors EcommerceService.Models
open EcommerceService.Database EcommerceService.Repositories EcommerceService.Backend
open EcommerceService.Services EcommerceService.Facades EcommerceService.OutboxPolling
open EcommerceService.Saga EcommerceService.TransactionEffects

/-- The replies a call may get. -/
def Possible (c : Call) (r : c.Reply) : Prop := ∃ w w', World.exec c w r w'

theorem rejection_conflict {A : Type} {P : Query → Prop} {kind : TransactionKind}
    {effect : Statements A} (h : Effect.Confined Effect.anyAnswer P Conflicting effect)
    {e : Option Error}
    (he : Possible (.transaction kind A (PrismaService.effectWithTransaction effect)) (.rejected e)) :
    (PrismaService.rejection e).isConflict = true := by
  cases e with
  | none => rfl
  | some e =>
    obtain ⟨w, _, ⟨t, hr⟩, _⟩ := he
    have hconflict := ((effectWithTransaction_confined h).runs (F := fun _ => True) hr trivial
      (fun _ _ _ _ _ _ => trivial) (fun _ _ _ _ _ _ _ => trivial)).1 e rfl
    simpa [PrismaService.rejection, Error.isApplication_of_isConflict hconflict] using hconflict

def Holds (event : OutboxEventModel) (info : CreateOrderInfo) : Prop :=
  event.payload = (Json.order info).stringify.stringify

theorem Holds.unique {event : OutboxEventModel} {info info' : CreateOrderInfo} (h : Holds event info)
    (h' : Holds event info') : info = info' := by
  have hjson : (Json.order info).stringify.stringify = (Json.order info').stringify.stringify :=
    h.symm.trans h'
  simpa [Json.stringify] using hjson

theorem payload_decodes (info : CreateOrderInfo) :
    parsePayload (Json.order info).stringify.stringify = some (.order info) ∧
    rawPayload (Json.order info).stringify.stringify = some (.order info) ∧
    orderInfoOf (received (Json.order info).stringify.stringify) = some info := ⟨rfl, rfl, rfl⟩

/-- The calls each job may make. -/
inductive Makes : Job → Call → Prop
  | order {userId : ℕ} {items : List CreateOrderItemCommand} :
      Makes (.order userId items) (.transaction .order CreateOrderInfo
        (PrismaService.effectWithTransaction
          ((OrderService.createOrder userId items).flatMap OrderFacade.createOutboxEvent)))
  | deductStock {m : Message} {info : CreateOrderInfo} : m.eventType = .orderCreated →
      orderInfoOf (received m.value) = some info →
      Makes (.message m) (.transaction (.deductStock info.order.id) Unit
        (PrismaService.effectWithTransaction (ProductFacade.deducting info)))
  | outOfStock {m : Message} {info : CreateOrderInfo} : m.eventType = .orderCreated →
      orderInfoOf (received m.value) = some info →
      Makes (.message m) (.statement (.createOutboxEvent (aggregateId info.order.id, .orderDeductStock)
        (Json.order info).stringify .fail))
  | findOrderCreated {m : Message} {info : CreateOrderInfo} : m.eventType = .orderCreated →
      orderInfoOf (received m.value) = some info →
      Makes (.message m) (.statement (.findUniqueOutboxEvent (aggregateId info.order.id, .orderCreated)))
  | setInit {m : Message} {info : CreateOrderInfo} : m.eventType = .orderCreated →
      orderInfoOf (received m.value) = some info →
      Makes (.message m) (.statement (.updateOutboxEvent (aggregateId info.order.id, .orderCreated) .init))
  | payment {m : Message} {info : CreateOrderInfo} : m.eventType = .orderDeductStock →
      orderInfoOf (received m.value) = some info →
      Makes (.message m) (.transaction (.payment info.order.id) WalletModel
        (PrismaService.effectWithTransaction (UserFacade.paying info)))
  | paymentFailed {m : Message} {info : CreateOrderInfo} : m.eventType = .orderDeductStock →
      orderInfoOf (received m.value) = some info →
      Makes (.message m) (.statement (.createOutboxEvent (aggregateId info.order.id, .orderPayment)
        (Json.order info).stringify .fail))
  | orderSuccess {m : Message} {info : CreateOrderInfo} : m.eventType = .orderPayment →
      orderInfoOf (received m.value) = some info →
      Makes (.message m) (.transaction (.orderSuccess info.order.id) OrderModel
        (PrismaService.effectWithTransaction ((OrderService.updateOrderStatus info.order.id .paid).tap
          (fun _ => OrderFacade.orderSuccessEvent info))))
  | publish {e : OutboxEventModel} {info : CreateOrderInfo} : Holds e info →
      Makes (.event .handleInitEvents e) (.emit e.eventType info.order.id e.payload)
  | success {poll : Poll} {e : OutboxEventModel} :
      Makes (.event poll e) (.statement (.updateOutboxEvent (e.aggregateId, e.eventType) .success))
  | restore {e : OutboxEventModel} {info : CreateOrderInfo} : e.eventType = .orderPayment →
      Holds e info → Makes (.event .handleFailedEvents e) (.transaction (.restoreStock info.order.id) Unit
        (PrismaService.effectWithTransaction (restoring info)))
  | failOrder {e : OutboxEventModel} {info : CreateOrderInfo} : e.eventType ≠ .orderPayment →
      Holds e info → Makes (.event .handleFailedEvents e) (.statement (.updateOrder info.order.id .failed))
  | failed {e : OutboxEventModel} :
      Makes (.event .handleFailedEvents e) (.statement (.updateOutboxEvent (e.aggregateId, e.eventType) .fail))

/-- The updates of an event row: the handling of `order.created` sets its row to `INIT`, and
that of an event sets the row it was read from. -/
theorem Makes.update {job : Job} {key : OutboxKey} {status : OutboxEventStatus}
    (h : Makes job (.statement (.updateOutboxEvent key status))) :
    (∃ m o, job = .message m ∧ key = (aggregateId o, .orderCreated) ∧ status = .init) ∨
    ∃ poll e, job = .event poll e ∧ key = (e.aggregateId, e.eventType) ∧
      (status = .success ∨ poll = .handleFailedEvents ∧ status = .fail) := by
  cases h with
  | setInit _ _ => exact .inl ⟨_, _, rfl, rfl, rfl⟩
  | success => exact .inr ⟨_, _, rfl, rfl, .inl rfl⟩
  | failed => exact .inr ⟨_, _, rfl, rfl, .inr ⟨rfl, rfl⟩⟩

section Programs

variable {P : Call → Prop}

theorem calls_statement {q : Query} {A : Type} {f : q.Answer → A} (h : P (.statement q)) :
    Effect.Confined Possible P (fun _ => True) (autocommit ((tryPromise q).map f)) :=
  confined_autocommit (confined_tryPromise (P := fun q => P (.statement q)) h trivial).map

theorem calls_updateStatus {event : OutboxEventModel} {status : OutboxEventStatus}
    (h : P (.statement (.updateOutboxEvent (event.aggregateId, event.eventType) status))) :
    Effect.Confined Possible P (fun _ => True) (updateStatus event status) := (calls_statement h).map

theorem calls_order (userId : ℕ) (items : List CreateOrderItemCommand) :
    Effect.Confined Possible (Makes (.order userId items)) (fun _ => True)
      (OrderFacade.order userId items).asVoid := by
  refine Effect.Confined.map (Effect.Confined.catchAll (Q := fun _ => True)
    (PrismaService.confined_transaction .order (fun _ _ => trivial)).map (fun e _ => ?_))
  split
  · exact Effect.confined_succeed
  · exact Effect.confined_fail.mpr trivial

variable {m : Message} {info : CreateOrderInfo}

theorem calls_processOrderDeductStock (hty : m.eventType = .orderCreated)
    (hinfo : orderInfoOf (received m.value) = some info) :
    Effect.Confined Possible (Makes (.message m)) (fun _ => True)
      (ProductFacade.processOrderDeductStock info) := by
  refine Effect.Confined.catchAll (Q := fun _ => True)
    (PrismaService.confined_transaction (.deductStock hty hinfo) (fun _ _ => trivial)) (fun e _ => ?_)
  split
  · exact (calls_statement (.outOfStock hty hinfo)).map
  · refine Effect.confined_perform.mpr ⟨.findOrderCreated hty hinfo, fun r _ => ?_⟩
    match r with
    | none => exact Effect.confined_fail.mpr trivial
    | some none => exact Effect.confined_succeed
    | some (some row) => exact (calls_statement (.setInit hty hinfo)).map

theorem calls_processOrderPayment (hty : m.eventType = .orderDeductStock)
    (hinfo : orderInfoOf (received m.value) = some info) :
    Effect.Confined Possible (Makes (.message m)) (fun _ => True)
      (UserFacade.processOrderPayment info) :=
  Effect.Confined.catchAll (Q := fun _ => True)
    (PrismaService.confined_transaction (.payment hty hinfo) (fun _ _ => trivial)).map
    (fun _ _ => (calls_statement (.paymentFailed hty hinfo)).map)

theorem calls_processOrderSuccess (hty : m.eventType = .orderPayment)
    (hinfo : orderInfoOf (received m.value) = some info) :
    Effect.Confined Possible (Makes (.message m)) (fun _ => True)
      (OrderFacade.processOrderSuccess info).asVoid :=
  (PrismaService.confined_transaction (.orderSuccess hty hinfo) (fun _ _ => trivial)).map

theorem calls_message (m : Message) :
    Effect.Confined Possible (Makes (.message m)) (fun _ => True) (Job.message m).program := by
  have hbranch : ∀ facade : CreateOrderInfo → Service Unit,
      (∀ info, orderInfoOf (received m.value) = some info →
        Effect.Confined Possible (Makes (.message m)) (fun _ => True) (facade info)) →
      Effect.Confined Possible (Makes (.message m)) (fun _ => True)
        (withOrderInfo (received m.value) facade) := by
    intro facade hfacade
    rw [withOrderInfo]
    split
    · rename_i info hinfo
      exact hfacade info hinfo
    · exact Effect.confined_die
  rw [Job.program]
  split
  · rename_i hty
    exact hbranch _ (fun _ => calls_processOrderDeductStock hty)
  · rename_i hty
    exact hbranch _ (fun _ => calls_processOrderPayment hty)
  · rename_i hty
    exact hbranch _ (fun _ => calls_processOrderSuccess hty)
  · exact Effect.confined_succeed

variable {event : OutboxEventModel}

theorem calls_produce {ty : OutboxEventType} {key : ℕ} (h : P (.emit ty key event.payload)) :
    Effect.Confined Possible P (fun _ => True) (produce ty key event) := by
  refine Effect.Confined.retry 3 (Effect.confined_perform.mpr ⟨h, fun r _ => ?_⟩)
  cases r with
  | true => exact Effect.confined_succeed
  | false => exact Effect.confined_fail.mpr trivial

theorem calls_produceEvent (h : P (.emit event.eventType info.order.id event.payload)) :
    Effect.Confined Possible P (fun _ => True) (produceEvent event (.order info)) := by
  rw [produceEvent, Json.asOrder]
  cases hty : event.eventType with
  | orderCreated => exact calls_produce (hty ▸ h)
  | orderDeductStock => exact calls_produce (hty ▸ h)
  | orderPayment => exact calls_produce (hty ▸ h)
  | orderSuccess => exact Effect.confined_succeed
  | orderFailed => exact Effect.confined_die
  | other text => exact Effect.confined_die

theorem calls_processOutboxEvent (hpayload : Holds event info) :
    Effect.Confined Possible (Makes (.event .handleInitEvents event)) (fun _ => False)
      (processOutboxEvent event) := by
  rw [processOutboxEvent, hpayload, (payload_decodes info).1]
  exact ((calls_produceEvent (.publish hpayload)).tap (fun _ => calls_updateStatus .success)).catchAll
    (fun _ _ => Effect.confined_succeed)

theorem calls_compensate (hpayload : Holds event info) :
    Effect.Confined Possible (Makes (.event .handleFailedEvents event)) (fun _ => True)
      (compensate event.eventType (some info)) := by
  rw [compensate]
  split
  · rename_i hty
    refine Effect.Confined.catchAll (Q := fun e => e.isConflict = true)
      (PrismaService.confined_transaction (.restore hty hpayload)
        (fun e he => rejection_conflict (restoring_confined info) he)) (fun e he => ?_)
    rw [if_pos he]
    exact Effect.confined_succeed
  · rename_i hty
    exact (calls_statement (.failOrder hty hpayload)).map

theorem calls_executeCompensation (hpayload : Holds event info) :
    Effect.Confined Possible (Makes (.event .handleFailedEvents event)) (fun _ => True)
      (executeCompensation event) := by
  rw [executeCompensation, hpayload, (payload_decodes info).2.1]
  exact ((calls_compensate hpayload).promise trivial).flatMap (fun _ => calls_updateStatus .success)

theorem calls_event (poll : Poll) (hpayload : Holds event info) :
    Effect.Confined Possible (Makes (.event poll event)) (fun _ => True) (poll.handle event) := by
  cases poll with
  | handleInitEvents =>
    exact ((calls_processOutboxEvent hpayload).retry 3).catchAll (fun _ h => h.elim)
  | handleFailedEvents =>
    exact ((calls_executeCompensation hpayload).retry 3).catchAll
      (fun _ _ => calls_updateStatus .failed)

end Programs

def Readable : Job → Prop
  | .event _ e => ∃ info, Holds e info
  | _ => True

/-- A job makes no other calls than these. -/
theorem calls_program {job : Job} (h : Readable job) :
    Effect.Confined Possible (Makes job) (fun _ => True) job.program := by
  cases job with
  | order userId items => exact calls_order userId items
  | message m => exact calls_message m
  | event poll e =>
    obtain ⟨info, hpayload⟩ := h
    exact calls_event poll hpayload

section Transactions

/-- A transaction that changes no event row: it only creates rows and sets the status of
orders. -/
structure Creates (s t : Store) : Prop where
  row : ∀ key row, s.db.outboxEvent key = some row → t.db.outboxEvent key = some row
  journal : ∃ w, t.journal = s.journal ++ w ∧ ∀ e ∈ w,
    (∃ key status, e = .created key status ∧ s.db.outboxEvent key = none) ∨
      ∃ id status, e = .orderSet id status

theorem Creates.of_same {s t : Store} (h : SameSaga s t) : Creates s t :=
  ⟨fun _ _ hrow => h.outboxEvent ▸ hrow, [], by rw [h.journal, List.append_nil], by simp⟩

theorem Creates.of_create {s u t : Store} {key : OutboxKey} {payload : Json}
    {status : OutboxEventStatus} {row : OutboxEventRow} {w : List Event}
    (hrows : u.db.outboxEvent = s.db.outboxEvent) (hj : u.journal = s.journal ++ w)
    (hw : ∀ e ∈ w, ∃ id status, e = .orderSet id status)
    (h : Store.exec (.createOutboxEvent key payload status) u (some row) t) : Creates s t := by
  obtain ⟨⟨hnone, rfl⟩, rfl⟩ := h
  refine ⟨fun key' row' hrow => ?_, w ++ [.created key status], ?_, fun e he => ?_⟩
  · have hne : key' ≠ key := by
      rintro rfl
      rw [hrows, hrow] at hnone
      cases hnone
    show Function.update u.db.outboxEvent key _ key' = _
    rw [Function.update_of_ne hne, hrows, hrow]
  · simp [Store.after, Query.events, hj]
  · obtain he | he := List.mem_append.mp he
    · exact .inr (hw e he)
    · exact .inl ⟨key, status, List.mem_singleton.mp he, hrows ▸ hnone⟩

theorem Creates.of_same_create {s u t : Store} {key : OutboxKey} {payload : Json}
    {status : OutboxEventStatus} {row : OutboxEventRow} (hs : SameSaga s u)
    (h : Store.exec (.createOutboxEvent key payload status) u (some row) t) : Creates s t :=
  .of_create (w := []) hs.outboxEvent (by rw [hs.journal, List.append_nil]) (by simp) h

theorem Makes.creates {job : Job} {kind : TransactionKind} {A : Type} {body : Statements A}
    {s t : Store} {a : A} (h : Makes job (.transaction kind A body))
    (hr : Effect.Runs Store.exec body s (.success a) t) : Creates s t := by
  cases h with
  | order =>
    obtain ⟨u, _, _, _, hrows, hj, hexec⟩ := runs_ordering (runs_effectWithTransaction.mp hr)
    exact .of_create (w := []) hrows (by rw [hj, List.append_nil]) (by simp) hexec
  | deductStock _ _ =>
    obtain ⟨u, _, hsame, hexec⟩ := runs_deducting (runs_effectWithTransaction.mp hr)
    exact .of_same_create hsame hexec
  | payment _ _ =>
    obtain ⟨u, _, hsame, hexec⟩ := runs_paying (runs_effectWithTransaction.mp hr)
    exact .of_same_create hsame hexec
  | @orderSuccess m info _ _ =>
    obtain ⟨u, _, _, ⟨_, hu⟩, hexec⟩ := runs_succeeding (runs_effectWithTransaction.mp hr)
    have hrows : u.db.outboxEvent = s.db.outboxEvent := hu ▸ rfl
    have hj : u.journal = s.journal ++ [.orderSet info.order.id .paid] := hu ▸ rfl
    exact .of_create hrows hj (by simp) hexec
  | restore _ _ => exact .of_same (runs_restoring (runs_effectWithTransaction.mp hr))

end Transactions

end EcommerceService.SagaCalls
