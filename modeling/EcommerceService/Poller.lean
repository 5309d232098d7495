import EcommerceService.Payloads
import EcommerceService.SagaCalls
import EcommerceService.Lib.ForEach

namespace EcommerceService.Poller

open EcommerceService.Effects EcommerceService.Errors EcommerceService.JsonText
open EcommerceService.Payloads EcommerceService.ForEach EcommerceService.Decimals
open EcommerceService.Models (OutboxEventStatus)
open EcommerceService.OutboxPolling (Poll)

section Code

/-- How the promise of a compensation is settled. A restoring transaction that fails with a conflict
is taken for success, and one in which something is thrown keeps its promise pending. -/
inductive Settlement where
  | carriedOut
  | swallowed
  | rejected
  | pending
deriving DecidableEq

instance : Fintype Settlement :=
  ⟨{.carriedOut, .swallowed, .rejected, .pending}, fun x => by cases x <;> decide⟩

/-- The promises that the handlers wait for. The last one is never settled. -/
inductive Call where
  | emit (topic : String) (key : Option Value) (value : String)
  | update (aggregateId eventType : String) (status : OutboxEventStatus)
  | compensate (event : OutboxEventModel) (payload : Value)
  | never

abbrev Call.Reply : Call → Type
  | .emit _ _ _ => Bool
  | .update _ _ _ => Bool
  | .compensate _ _ => Settlement
  | .never => Empty

instance : (c : Call) → Fintype c.Reply
  | .emit _ _ _ => inferInstanceAs (Fintype Bool)
  | .update _ _ _ => inferInstanceAs (Fintype Bool)
  | .compensate _ _ => inferInstanceAs (Fintype Settlement)
  | .never => inferInstanceAs (Fintype Empty)

abbrev Handling (A : Type) : Type := Effect Call Call.Reply Error A

def settle : (c : Call) → c.Reply → Handling Unit
  | .emit _ _ _, resolved => if resolved then .succeed () else .fail .unknownException
  | .update _ _ _, resolved => if resolved then .succeed () else .fail .unknownException
  | .compensate _ _, .carriedOut => .succeed ()
  | .compensate _ _, .swallowed => .succeed ()
  | .compensate _ _, .rejected => .fail .unknownException
  | .compensate _ _, .pending => .perform .never Empty.elim

def tryPromise (c : Call) : Handling Unit := .perform c (settle c)

def produce (topic : String) (key : Option Value) (outbox : OutboxEventModel) : Handling Unit :=
  (tryPromise (.emit topic key outbox.payload)).retry 3

def OrderEventProducer.produceOrderCreatedEvent (key : Option Value) (outbox : OutboxEventModel) :
    Handling Unit := produce OutboxEventTypes.orderCreated key outbox

def ProductProducer.produceOrderDeductStockEvent (key : Option Value) (outbox : OutboxEventModel) :
    Handling Unit := produce OutboxEventTypes.orderDeductStock key outbox

def UserProducer.produceOrderSuccessEvent (key : Option Value) (outbox : OutboxEventModel) :
    Handling Unit := produce OutboxEventTypes.orderPayment key outbox

def property (name : String) : Option Value → Option (Option Value)
  | none => none
  | some v => if v.isNull then none else some (v.member name)

def orderId (payload : Value) : Option (Option Value) :=
  (property "order" (some payload)).bind (property "id")

def orderItems (payload : Value) : Option (List Value) :=
  match payload.member "orderItems" with
  | some (.array items) => if items.any (·.isNull) then none else some items
  | _ => none

def productId (item : Value) : Option Decimal :=
  match item.member "productId" with
  | some (.number d) => some d
  | _ => none

def addThrows (quantity : Option Value) : Bool := !quantity.all Value.converts

/-- Whether `addStocks` throws at one of the stocks that are found. -/
def addStocksThrows (stocks : Decimal → Bool) (payload : Value) : Bool :=
  (orderItems payload).any (fun items => (items.filterMap productId).any (fun product =>
    stocks product && (items.find? (fun item => productId item = some product)).any
      (fun item => addThrows (item.member "quantity"))))

namespace OutboxPollingService

def updateStatus (event : OutboxEventModel) (status : OutboxEventStatus) : Handling Unit :=
  tryPromise (.update event.aggregateId event.eventType status)

def handleFailedEvent (event : OutboxEventModel) : Handling Unit := updateStatus event .fail

def createEventHandler (processEvent : OutboxEventModel → Handling Unit) (event : OutboxEventModel) :
    Handling Unit :=
  ((processEvent event).retry 3).catchAll (fun _ => handleFailedEvent event)

def withKey (payload : Value) (produceEvent : Option Value → Handling Unit) : Handling Unit :=
  match orderId payload with
  | some key => produceEvent key
  | none => .die

def produceEvent (event : OutboxEventModel) (payload : Value) : Handling Unit :=
  if event.eventType = OutboxEventTypes.orderCreated then
    withKey payload (fun key => OrderEventProducer.produceOrderCreatedEvent key event)
  else if event.eventType = OutboxEventTypes.orderDeductStock then
    withKey payload (fun key => ProductProducer.produceOrderDeductStockEvent key event)
  else if event.eventType = OutboxEventTypes.orderPayment then
    withKey payload (fun key => UserProducer.produceOrderSuccessEvent key event)
  else if event.eventType = OutboxEventTypes.orderSuccess then .succeed ()
  else .die

/-- What is thrown here is thrown while the effect is built. -/
def processOutboxEvent (event : OutboxEventModel) : Handling Unit :=
  match OutboxPollingService.parsePayload event.payload with
  | some payload => ((produceEvent event payload).tap (fun _ => updateStatus event .success)).catchAll
      (fun _ => .succeed ())
  | none => .die

def executeCompensation (event : OutboxEventModel) : Handling Unit :=
  match OutboxPollingService.rawPayload event.payload with
  | some payload =>
      (tryPromise (.compensate event payload)).flatMap (fun _ => updateStatus event .success)
  | none => .die

end OutboxPollingService

/-- How the compensation of an event can be settled when these products have a stock. What fails in
the restoring transaction is a conflict, and what is thrown outside of it rejects the promise. -/
def Compensates (stocks : Decimal → Bool) (event : OutboxEventModel) (payload : Value) : Settlement → Prop
  | .carriedOut =>
      if event.eventType = OutboxEventTypes.orderPayment then
        orderItems payload ≠ none ∧ addStocksThrows stocks payload = false
      else orderId payload ≠ none
  | .swallowed => event.eventType = OutboxEventTypes.orderPayment
  | .rejected => event.eventType ≠ OutboxEventTypes.orderPayment
  | .pending => event.eventType = OutboxEventTypes.orderPayment ∧ addStocksThrows stocks payload = true

def handle : Poll → OutboxEventModel → Handling Unit
  | .handleInitEvents =>
      OutboxPollingService.createEventHandler OutboxPollingService.processOutboxEvent
  | .handleFailedEvents =>
      OutboxPollingService.createEventHandler OutboxPollingService.executeCompensation

abbrev Key : Type := String × String

def rowKey (row : OutboxEvent) : Key := (row.aggregateId, row.eventType)

def eventKey (event : OutboxEventModel) : Key := (event.aggregateId, event.eventType)

def setStatus (key : Key) (status : OutboxEventStatus) (row : OutboxEvent) : OutboxEvent :=
  if rowKey row = key then { row with status := status } else row

@[simp] theorem rowKey_setStatus (key : Key) (status : OutboxEventStatus) (row : OutboxEvent) :
    rowKey (setStatus key status row) = rowKey row := by
  rw [setStatus]
  split <;> rfl

structure Table where
  rows : List OutboxEvent
  unique : (rows.map rowKey).Nodup

namespace Table

def update (key : Key) (status : OutboxEventStatus) (s : Table) : Table :=
  ⟨s.rows.map (setStatus key status), by
    rw [List.map_map]
    simpa [Function.comp_def] using s.unique⟩

def status (key : Key) (s : Table) : Option OutboxEventStatus :=
  (s.rows.find? (fun row => rowKey row = key)).map (·.status)

def exec (stocks : Decimal → Bool) : (c : Call) → Table → c.Reply → Table → Prop
  | .emit _ _ _, s, _, t => t = s
  | .update aggregateId eventType status, s, resolved, t =>
      if resolved then s.status (aggregateId, eventType) ≠ none ∧
        t = s.update (aggregateId, eventType) status
      else t = s
  | .compensate event payload, s, settlement, t => Compensates stocks event payload settlement ∧ t = s

/-- `findEventsByStatus` reads at most 500 of the rows, in any order. -/
def Finds (s : Table) (status : OutboxEventStatus) (rows : List OutboxEvent) : Prop :=
  ∃ order : List OutboxEvent, order.Perm (s.rows.filter (fun row => row.status = status)) ∧ rows = order.take 500

end Table

abbrev EventTasks : Type := Tasks OutboxEventModel Call Call.Reply Error Unit

/-- The rows that `handleEvents` has read, the products that have a stock meanwhile, what has become
of the rows, and the table before and after. -/
structure Batch where
  poll : Poll
  stocks : Decimal → Bool
  before : Table
  rows : List OutboxEvent
  tasks : EventTasks
  after : Table

def caught : Exit Error (List Unit) → Exit Error Unit
  | .success _ => .success ()
  | .failure _ => .success ()
  | .defect => .defect

abbrev Answers : Type := (Decimal → Bool) → (c : Call) → c.Reply → Prop

def Table.answered (good : Answers) (stocks : Decimal → Bool) (c : Call) (s : Table) (r : c.Reply)
    (t : Table) : Prop := Table.exec stocks c s r t ∧ good stocks c r

/-- How a call of `handleEvents` ends, if it does. When the rows cannot be read, that is caught
too. When no promise that is left is ever settled, it does not end. -/
inductive HandleEvents (good : Answers) (poll : Poll) :
    Table → List Batch → Option (Exit Error Unit) → Table → Prop
  | rejected {s : Table} : HandleEvents good poll s [] (some (.success ())) s
  | read {s t : Table} {rows : List OutboxEvent} {stocks : Decimal → Bool} {tasks : EventTasks} :
      s.Finds poll.status rows →
      Steps 5 (handle poll) (Table.answered good stocks) (start (rows.map OutboxEventModel.from), s)
        (tasks, t) → Over tasks →
      HandleEvents good poll s [⟨poll, stocks, s, rows, tasks, t⟩] (some (caught (outcome tasks))) t
  | hangs {s t : Table} {rows : List OutboxEvent} {stocks : Decimal → Bool} {tasks : EventTasks} :
      s.Finds poll.status rows →
      Steps 5 (handle poll) (Table.answered good stocks) (start (rows.map OutboxEventModel.from), s)
        (tasks, t) → ¬ Over tasks → (∀ w, ¬ Step 5 (handle poll) (Table.exec stocks) (tasks, t) w) →
      HandleEvents good poll s [⟨poll, stocks, s, rows, tasks, t⟩] none t

inductive PollEvents (good : Answers) : Table → List Batch → Option (Exit Error Unit) → Table → Prop
  | first {s t : Table} {batches : List Batch} {x : Option (Exit Error Unit)} :
      HandleEvents good .handleInitEvents s batches x t → x ≠ some (.success ()) →
      PollEvents good s batches x t
  | both {s t u : Table} {batches batches' : List Batch} {x : Option (Exit Error Unit)} :
      HandleEvents good .handleInitEvents s batches (some (.success ())) u →
      HandleEvents good .handleFailedEvents u batches' x t →
      PollEvents good s (batches ++ batches') x t

/-- The fiber that `onModuleInit` forks: the batches of its polls so far, and whether it goes on.
Between two polls the table may change in any way. A defect ends the fiber, and a poll that does
not end holds it. -/
inductive OnModuleInit (good : Answers) : List Batch → Bool → Prop
  | fork : OnModuleInit good [] true
  | completes {batches batches' : List Batch} {s t : Table} : OnModuleInit good batches true →
      PollEvents good s batches' (some (.success ())) t → OnModuleInit good (batches ++ batches') true
  | stops {batches batches' : List Batch} {s t : Table} {x : Option (Exit Error Unit)} :
      OnModuleInit good batches true → PollEvents good s batches' x t → x ≠ some (.success ()) →
      OnModuleInit good (batches ++ batches') false

end Code

section Handlers

def keyedTypes : List String :=
  [OutboxEventTypes.orderCreated, OutboxEventTypes.orderDeductStock, OutboxEventTypes.orderPayment]

/-- The handler throws nothing while it builds its effect. -/
def Builds : Poll → OutboxEventModel → Prop
  | .handleInitEvents, event => ∃ payload,
      OutboxPollingService.parsePayload event.payload = some payload ∧
        (event.eventType = OutboxEventTypes.orderSuccess ∨
          (event.eventType ∈ keyedTypes ∧ orderId payload ≠ none))
  | .handleFailedEvents, event => ∃ payload, OutboxPollingService.rawPayload event.payload = some payload

variable {poll : Poll} {event : OutboxEventModel} {payload : Value}

theorem produceEvent_die (h : ¬ (event.eventType = OutboxEventTypes.orderSuccess ∨
      (event.eventType ∈ keyedTypes ∧ orderId payload ≠ none))) :
    OutboxPollingService.produceEvent event payload = .die := by
  simp only [keyedTypes, List.mem_cons, List.not_mem_nil, or_false, not_or, not_and, not_not] at h
  obtain ⟨hsuccess, hkeyed⟩ := h
  rw [OutboxPollingService.produceEvent]
  by_cases hkey : event.eventType = OutboxEventTypes.orderCreated ∨
      event.eventType = OutboxEventTypes.orderDeductStock ∨
      event.eventType = OutboxEventTypes.orderPayment
  · simp [OutboxPollingService.withKey, hkeyed hkey, hsuccess]
  · obtain ⟨hcreated, hdeduct, hpayment⟩ := by simpa only [not_or] using hkey
    rw [if_neg hcreated, if_neg hdeduct, if_neg hpayment, if_neg hsuccess]

/-- Where something is thrown the handler is a defect, and neither the retries nor the mark of the
failure are reached. -/
theorem handle_die (h : ¬ Builds poll event) : handle poll event = .die := by
  cases poll with
  | handleInitEvents =>
    suffices hdie : OutboxPollingService.processOutboxEvent event = .die by
      rw [handle, OutboxPollingService.createEventHandler, hdie]
      rfl
    rw [OutboxPollingService.processOutboxEvent]
    cases hparse : OutboxPollingService.parsePayload event.payload with
    | none => rfl
    | some payload =>
      have hproduce : OutboxPollingService.produceEvent event payload = .die :=
        produceEvent_die (fun hr => h ⟨payload, hparse, hr⟩)
      simp only [hproduce]
      rfl
  | handleFailedEvents =>
    cases hraw : OutboxPollingService.rawPayload event.payload with
    | some payload => exact absurd ⟨payload, hraw⟩ h
    | none =>
      rw [handle, OutboxPollingService.createEventHandler, OutboxPollingService.executeCompensation, hraw]
      rfl

def Own (key : Key) (c : Call) : Prop :=
  ∀ aggregateId eventType status, c = .update aggregateId eventType status → (aggregateId, eventType) = key

variable {good : (c : Call) → c.Reply → Prop} {P : Call → Prop} {Q : Exit Error Unit → Prop}

theorem own_updateStatus (status : OutboxEventStatus) :
    Own (eventKey event) (.update event.aggregateId event.eventType status) := by
  rintro _ _ _ ⟨⟩
  rfl

theorem own_emit {key : Key} {topic : String} {k : Option Value} {value : String} :
    Own key (.emit topic k value) := by
  rintro _ _ _ ⟨⟩

theorem own_compensate {key : Key} : Own key (.compensate event payload) := by
  rintro _ _ _ ⟨⟩

theorem own_never {key : Key} : Own key .never := by
  rintro _ _ _ ⟨⟩

def Allows (event : OutboxEventModel) (P : Call → Prop) : Prop :=
  ∀ c, Own (eventKey event) c → c ≠ .never → P c

theorem Allows.update (h : Allows event P) (status : OutboxEventStatus) :
    P (.update event.aggregateId event.eventType status) :=
  h _ (own_updateStatus status) (by rintro ⟨⟩)

theorem within_update {status : OutboxEventStatus} (hP : Allows event P) (hs : Q (.success ()))
    (hf : good (.update event.aggregateId event.eventType status) false →
      Q (.failure .unknownException)) :
    Effect.Within good P Q (OutboxPollingService.updateStatus event status) := by
  refine ⟨hP.update status, fun resolved hr => ?_⟩
  cases resolved with
  | true => exact hs
  | false => exact hf hr

theorem within_produce (hP : Allows event P) (topic : String) (key : Option Value) :
    Effect.Within good P (· ≠ .defect) (produce topic key event) := by
  refine Effect.Within.retry 3 ⟨hP _ own_emit (by rintro ⟨⟩), fun resolved _ => ?_⟩
  cases resolved with
  | true => rintro ⟨⟩
  | false => rintro ⟨⟩

theorem within_compensate (hP : Allows event P) (hnever : good (.compensate event payload) .pending → P .never) :
    Effect.Within good P (· ≠ .defect) (tryPromise (.compensate event payload)) := by
  refine ⟨hP _ own_compensate (by rintro ⟨⟩), fun settlement hr => ?_⟩
  cases settlement with
  | carriedOut => rintro ⟨⟩
  | swallowed => rintro ⟨⟩
  | rejected => rintro ⟨⟩
  | pending => exact ⟨hnever hr, by rintro ⟨⟩⟩

theorem produceEvent_keyed {key : Option Value} (hkeyed : event.eventType ∈ keyedTypes)
    (hkey : orderId payload = some key) :
    OutboxPollingService.produceEvent event payload = produce event.eventType key event := by
  have hcases : event.eventType = OutboxEventTypes.orderCreated ∨
      event.eventType = OutboxEventTypes.orderDeductStock ∨
      event.eventType = OutboxEventTypes.orderPayment := by simpa [keyedTypes] using hkeyed
  obtain htype | htype | htype := hcases
  · simp only [OutboxPollingService.produceEvent, htype, OutboxPollingService.withKey, hkey]
    rfl
  · simp only [OutboxPollingService.produceEvent, htype, OutboxPollingService.withKey, hkey]
    rfl
  · simp only [OutboxPollingService.produceEvent, htype, OutboxPollingService.withKey, hkey]
    rfl

theorem produceEvent_paid (htype : event.eventType = OutboxEventTypes.orderSuccess) :
    OutboxPollingService.produceEvent event payload = .succeed () := by
  simp only [OutboxPollingService.produceEvent, htype]
  rfl

theorem within_processOutboxEvent (hP : Allows event P) (h : Builds .handleInitEvents event) :
    Effect.Within good P (· ≠ .defect) (OutboxPollingService.processOutboxEvent event) := by
  obtain ⟨payload, hparse, hevent⟩ := h
  have hproduce : Effect.Within good P (· ≠ .defect) (OutboxPollingService.produceEvent event payload) := by
    obtain htype | ⟨hkeyed, hkey⟩ := hevent
    · rw [produceEvent_paid htype]
      rintro ⟨⟩
    · obtain ⟨key, hkey⟩ := Option.ne_none_iff_exists'.mp hkey
      rw [produceEvent_keyed hkeyed hkey]
      exact within_produce hP _ _
  simp only [OutboxPollingService.processOutboxEvent, hparse]
  refine Effect.within_catchAll.mpr (Effect.within_flatMap.mpr (hproduce.mono (fun _ hc => hc) (fun x hx => ?_)))
  cases x with
  | success a => exact Effect.within_flatMap.mpr (within_update hP (by rintro ⟨⟩) (fun _ => by rintro ⟨⟩))
  | failure e => rintro ⟨⟩
  | defect => exact absurd rfl hx

/-- What the replies `good` leave of the compensation does not wait for ever, or that is a call of
`P`. -/
def Waits (good : (c : Call) → c.Reply → Prop) (P : Call → Prop) (event : OutboxEventModel) : Prop :=
  ∀ payload, OutboxPollingService.rawPayload event.payload = some payload →
    good (.compensate event payload) .pending → P .never

theorem within_executeCompensation (hP : Allows event P) (hwaits : Waits good P event)
    (h : Builds .handleFailedEvents event) :
    Effect.Within good P (· ≠ .defect) (OutboxPollingService.executeCompensation event) := by
  obtain ⟨payload, hraw⟩ := h
  simp only [OutboxPollingService.executeCompensation, hraw]
  refine Effect.within_flatMap.mpr ((within_compensate hP (hwaits payload hraw)).mono (fun _ hc => hc)
    (fun x hx => ?_))
  cases x with
  | success a => exact within_update hP (by rintro ⟨⟩) (fun _ => by rintro ⟨⟩)
  | failure e => rintro ⟨⟩
  | defect => exact absurd rfl hx

theorem within_createEventHandler {processEvent : OutboxEventModel → Handling Unit} (hP : Allows event P)
    (hp : Effect.Within good P (· ≠ .defect) (processEvent event)) (hs : Q (.success ()))
    (hf : good (.update event.aggregateId event.eventType .fail) false →
      Q (.failure .unknownException)) :
    Effect.Within good P Q (OutboxPollingService.createEventHandler processEvent event) := by
  refine Effect.within_catchAll.mpr ((Effect.Within.retry 3 hp).mono (fun _ hc => hc) (fun x hx => ?_))
  cases x with
  | success a => exact hs
  | failure e => exact within_update hP hs hf
  | defect => exact absurd rfl hx

theorem within_handle (hP : Allows event P) (hwaits : poll = .handleFailedEvents → Waits good P event)
    (h : Builds poll event) (hs : Q (.success ()))
    (hf : good (.update event.aggregateId event.eventType .fail) false →
      Q (.failure .unknownException)) : Effect.Within good P Q (handle poll event) := by
  cases poll with
  | handleInitEvents => exact within_createEventHandler hP (within_processOutboxEvent hP h) hs hf
  | handleFailedEvents =>
    exact within_createEventHandler hP (within_executeCompensation hP (hwaits rfl) h) hs hf

theorem handle_own (poll : Poll) (event : OutboxEventModel) :
    Effect.Within Effect.anyAnswer (Own (eventKey event)) (fun _ => True) (handle poll event) := by
  by_cases h : Builds poll event
  · exact within_handle (fun c hown _ => hown) (fun _ _ _ _ => own_never) h trivial (fun _ => trivial)
  · rw [handle_die h]
    trivial

def Replies : Answers := fun stocks c r =>
  match c, r with
  | .compensate event payload, settlement => Compensates stocks event payload settlement
  | _, _ => True

/-- A status is set to `FAIL` whenever that is tried, and no restoring transaction fails before
something is thrown in it. -/
def Marks : Answers := fun stocks c r =>
  match c, r with
  | .update _ _ .fail, resolved => resolved = true
  | .compensate _ payload, settlement => settlement = .swallowed → addStocksThrows stocks payload = false
  | _, _ => True

/-- Nothing is thrown in the restoring transaction of the event. -/
def Calm (stocks : Decimal → Bool) (poll : Poll) (event : OutboxEventModel) : Prop :=
  poll = .handleFailedEvents → event.eventType = OutboxEventTypes.orderPayment → ∀ payload,
    OutboxPollingService.rawPayload event.payload = some payload → addStocksThrows stocks payload = false

variable {stocks : Decimal → Bool}

theorem Calm.waits (h : Calm stocks poll event) (hgood : ∀ c r, good c r → Replies stocks c r)
    (hpoll : poll = .handleFailedEvents) : Waits good P event := by
  intro payload hraw hpending
  obtain ⟨htype, hthrows⟩ : Compensates stocks event payload .pending := hgood _ _ hpending
  rw [h hpoll htype payload hraw] at hthrows
  cases hthrows

/-- A handler that builds its effect, and a transaction in which nothing is thrown, come to an end
whatever is rejected. -/
theorem handle_ends (h : Builds poll event) (hcalm : Calm stocks poll event) :
    Effect.Within (Replies stocks) (· ≠ .never) (· ≠ .defect) (handle poll event) :=
  within_handle (fun c _ hc => hc) (hcalm.waits (fun _ _ hr => hr)) h (by rintro ⟨⟩) (fun _ => by rintro ⟨⟩)

theorem handle_success (h : Builds poll event) (hcalm : Calm stocks poll event) :
    Effect.Within (fun c r => Replies stocks c r ∧ Marks stocks c r) (fun _ => True)
      (fun x => ∃ a, x = .success a) (handle poll event) :=
  within_handle (fun _ _ _ => trivial) (hcalm.waits (fun _ _ hr => hr.1)) h ⟨(), rfl⟩
    (fun hf => by cases hf.2)

theorem handle_not_success (h : ¬ (Builds poll event ∧ Calm stocks poll event)) :
    Effect.Within (fun c r => Replies stocks c r ∧ Marks stocks c r) (fun _ => True) (· = .defect)
      (handle poll event) := by
  by_cases hbuilds : Builds poll event
  · have hcalm : ¬ Calm stocks poll event := fun hc => h ⟨hbuilds, hc⟩
    simp only [Calm, Classical.not_imp, not_forall, Bool.not_eq_false] at hcalm
    obtain ⟨rfl, htype, payload, hraw, hthrows⟩ := hcalm
    rw [handle, OutboxPollingService.createEventHandler]
    refine Effect.within_catchAll.mpr ((Effect.Within.retry 3 (Q := fun _ => False) ?_).mono
      (fun _ hc => hc) (fun x hx => hx.elim))
    simp only [OutboxPollingService.executeCompensation, hraw]
    refine Effect.within_flatMap.mpr ⟨trivial, fun settlement ⟨hreply, hmarks⟩ => ?_⟩
    cases settlement with
    | carriedOut =>
      simp only [Replies, Compensates, htype, if_true, hthrows] at hreply
      cases hreply.2
    | swallowed => exact absurd (hmarks rfl) (by simp [hthrows])
    | rejected => exact absurd htype hreply
    | pending => exact ⟨trivial, by rintro ⟨⟩⟩
  · rw [handle_die hbuilds]
    rfl

end Handlers

section Rows

def content : Value → Option Value
  | .string s => parse s
  | v => some v

theorem parsePayload_stringify (v : Value) :
    OutboxPollingService.parsePayload (stringify v) = content v := by
  simp only [OutboxPollingService.parsePayload, startsWith_stringify, decide_eq_true_eq,
    head_write_quote, parse_stringify]
  cases v with
  | string s => simp [Value.isString, content]
  | null => rfl
  | bool b => rfl
  | number d => rfl
  | array vs => rfl
  | object members => rfl

theorem rawPayload_stringify (v : Value) :
    OutboxPollingService.rawPayload (stringify v) = content v := by
  simp only [OutboxPollingService.rawPayload, parse_stringify, Option.bind_some]
  cases v <;> rfl

/-- The column holds a value that the handler can read: a text that it holds is a JSON text, and
where the id of the order is the key of a message, the value is not `null` and has an order that is
not `null`. The type is one that the handler knows. -/
def Readable (poll : Poll) (row : OutboxEvent) : Prop :=
  ∃ payload, content row.payload = some payload ∧ (poll = .handleInitEvents →
    row.eventType = OutboxEventTypes.orderSuccess ∨
      (row.eventType ∈ keyedTypes ∧ orderId payload ≠ none))

theorem builds_iff {poll : Poll} {row : OutboxEvent} :
    Builds poll (OutboxEventModel.from row) ↔ Readable poll row := by
  have hparse : OutboxPollingService.parsePayload (OutboxEventModel.from row).payload =
      content row.payload := parsePayload_stringify row.payload
  have hraw : OutboxPollingService.rawPayload (OutboxEventModel.from row).payload =
      content row.payload := rawPayload_stringify row.payload
  cases poll with
  | handleInitEvents =>
    rw [Builds, hparse]
    exact ⟨fun ⟨payload, hc, he⟩ => ⟨payload, hc, fun _ => he⟩,
      fun ⟨payload, hc, he⟩ => ⟨payload, hc, he rfl⟩⟩
  | handleFailedEvents =>
    rw [Builds, hraw]
    exact ⟨fun ⟨payload, hc⟩ => ⟨payload, hc, by rintro ⟨⟩⟩, fun ⟨payload, hc, _⟩ => ⟨payload, hc⟩⟩

/-- The row is readable, and where its stock is to be restored no quantity is come to that cannot be
added: the first item of a product that has a stock is to have no object as its quantity that hides
`toString`, and no list with such an object in it. -/
structure Harmless (stocks : Decimal → Bool) (poll : Poll) (row : OutboxEvent) : Prop where
  readable : Readable poll row
  calm : poll = .handleFailedEvents → row.eventType = OutboxEventTypes.orderPayment → ∀ payload,
    content row.payload = some payload → addStocksThrows stocks payload = false

theorem harmless_iff {stocks : Decimal → Bool} {poll : Poll} {row : OutboxEvent} :
    Builds poll (OutboxEventModel.from row) ∧ Calm stocks poll (OutboxEventModel.from row) ↔
      Harmless stocks poll row := by
  have hraw : OutboxPollingService.rawPayload (OutboxEventModel.from row).payload =
      content row.payload := rawPayload_stringify row.payload
  rw [builds_iff, Calm, hraw]
  exact ⟨fun h => ⟨h.1, h.2⟩, fun h => ⟨h.readable, h.calm⟩⟩

theorem content_holds {v payload : Value} (hv : ∀ s, v ≠ .string s) (h : Holds v payload) :
    content payload = some v := by
  cases h with
  | text => exact parse_stringify v
  | object =>
    cases v with
    | string s => exact absurd rfl (hv s)
    | null => rfl
    | bool b => rfl
    | number d => rfl
    | array vs => rfl
    | object members => rfl

theorem orderId_order (info : CreateOrderInfo) : orderId info.toJson = some (some (.number info.order.id)) := rfl

theorem readable_of_holds {info : CreateOrderInfo} {row : OutboxEvent} (poll : Poll)
    (hrow : Holds info.toJson row.payload)
    (htype : row.eventType = OutboxEventTypes.orderSuccess ∨ row.eventType ∈ keyedTypes) :
    Readable poll row := by
  refine ⟨info.toJson, content_holds (by rintro s ⟨⟩) hrow, fun _ => htype.imp_right (fun hm => ⟨hm, ?_⟩)⟩
  rw [orderId_order]
  rintro ⟨⟩

theorem orderItems_order (info : CreateOrderInfo) :
    orderItems info.toJson = some (info.orderItems.map (·.toJson)) := by
  have hmember : info.toJson.member "orderItems" = some (.array (info.orderItems.map (·.toJson))) := rfl
  have hnone : (info.orderItems.map (·.toJson)).any (·.isNull) = false :=
    List.any_eq_false.mpr (fun v hv => by
      obtain ⟨item, _, rfl⟩ := List.mem_map.mp hv
      rintro ⟨⟩)
  simp only [orderItems, hmember, hnone]
  rfl

theorem addStocksThrows_order (stocks : Decimal → Bool) (info : CreateOrderInfo) :
    addStocksThrows stocks info.toJson = false := by
  rw [addStocksThrows, orderItems_order, Option.any_some, List.any_eq_false]
  intro product _
  cases hfind : (info.orderItems.map (·.toJson)).find? (fun item => productId item = some product) with
  | none => simp
  | some found =>
    obtain ⟨item, _, rfl⟩ := List.mem_map.mp (List.mem_of_find?_eq_some hfind)
    have hquantity : addThrows (item.toJson.member "quantity") = false := rfl
    simp [hquantity]

theorem harmless_of_holds {info : CreateOrderInfo} {row : OutboxEvent} (stocks : Decimal → Bool) (poll : Poll)
    (hrow : Holds info.toJson row.payload)
    (htype : row.eventType = OutboxEventTypes.orderSuccess ∨ row.eventType ∈ keyedTypes) :
    Harmless stocks poll row := by
  refine ⟨readable_of_holds poll hrow htype, fun _ _ payload hpayload => ?_⟩
  rw [content_holds (by rintro s ⟨⟩) hrow] at hpayload
  exact Option.some.inj hpayload ▸ addStocksThrows_order stocks info

namespace Table

theorem status_update (s : Table) (key key' : Key) (status : OutboxEventStatus) :
    (s.update key status).status key' =
      if key' = key then (s.status key').map (fun _ => status) else s.status key' := by
  have hfind : (s.rows.map (setStatus key status)).find? (fun row => rowKey row = key') =
      (s.rows.find? (fun row => rowKey row = key')).map (setStatus key status) := by
    rw [List.find?_map]
    simp only [Function.comp_def, rowKey_setStatus]
  simp only [Table.status, update, hfind, Option.map_map]
  cases hrow : s.rows.find? (fun row => rowKey row = key') with
  | none => simp
  | some row =>
    have hkey := List.find?_some hrow
    have hkey' : rowKey row = key' := of_decide_eq_true hkey
    by_cases h : key' = key
    · simp [setStatus, hkey', h]
    · simp [setStatus, hkey', h]

def alone (stocks : Decimal → Bool) : (c : Call) → Option OutboxEventStatus → c.Reply →
    Option OutboxEventStatus → Prop
  | .emit _ _ _, v, _, v' => v' = v
  | .update _ _ status, v, resolved, v' => if resolved then v ≠ none ∧ v' = some status else v' = v
  | .compensate event payload, v, settlement, v' => Compensates stocks event payload settlement ∧ v' = v

variable {stocks : Decimal → Bool} {good : Answers} {c : Call} {s t : Table} {r : c.Reply}

theorem exec_replies (h : Table.exec stocks c s r t) : Replies stocks c r := by
  cases c with
  | emit topic key value => trivial
  | update aggregateId eventType status => trivial
  | compensate event payload => exact h.1
  | never => cases r

theorem exec_exists (stocks : Decimal → Bool) (c : Call) (s : Table) (hc : c ≠ .never) :
    ∃ r t, Table.exec stocks c s r t := by
  cases c with
  | emit topic key value => exact ⟨true, s, rfl⟩
  | update aggregateId eventType status => exact ⟨false, s, rfl⟩
  | compensate event payload =>
    by_cases htype : event.eventType = OutboxEventTypes.orderPayment
    · exact ⟨.swallowed, s, htype, rfl⟩
    · exact ⟨.rejected, s, htype, rfl⟩
  | never => exact absurd rfl hc

theorem exec_alone {key : Key} (hown : Own key c) (h : Table.exec stocks c s r t) :
    Table.alone stocks c (s.status key) r (t.status key) ∧
      ∀ key', key' ≠ key → t.status key' = s.status key' := by
  cases c with
  | emit topic k value => exact ⟨congrArg (Table.status key) h, fun _ _ => by rw [h]⟩
  | compensate event payload =>
    obtain ⟨hr, rfl⟩ := h
    exact ⟨⟨hr, rfl⟩, fun _ _ => rfl⟩
  | never => cases r
  | update aggregateId eventType status =>
    obtain rfl : (aggregateId, eventType) = key := hown _ _ _ rfl
    cases r with
    | false =>
      obtain rfl : t = s := h
      exact ⟨rfl, fun _ _ => rfl⟩
    | true =>
      obtain ⟨hsome, rfl⟩ := h
      obtain ⟨old, hold⟩ := Option.ne_none_iff_exists'.mp hsome
      refine ⟨⟨hsome, ?_⟩, fun key' hne => by rw [Table.status_update, if_neg hne]⟩
      rw [Table.status_update, if_pos rfl, hold]
      rfl

theorem answered_good (h : Table.answered good stocks c s r t) : Replies stocks c r ∧ good stocks c r :=
  ⟨exec_replies h.1, h.2⟩

theorem Finds.nodup {s : Table} {status : OutboxEventStatus} {rows : List OutboxEvent}
    (h : s.Finds status rows) : ((rows.map OutboxEventModel.from).map eventKey).Nodup := by
  obtain ⟨order, hperm, rfl⟩ := h
  have horder : (order.map rowKey).Nodup :=
    (hperm.map rowKey).nodup_iff.mpr (s.unique.sublist (List.filter_sublist.map rowKey))
  rw [List.map_map]
  exact horder.sublist ((List.take_sublist 500 order).map rowKey)

end Table

/-- A handler writes the status of its own row, and the other rows do not see it. -/
theorem separate (good : Answers) (stocks : Decimal → Bool) (poll : Poll) :
    Separate (handle poll) (Table.answered good stocks) eventKey Table.status (Table.alone stocks) Own :=
  ⟨handle_own poll, fun hown hc => (Table.exec_alone hown hc.1).1,
    fun hown hc hne => (Table.exec_alone hown hc.1).2 _ hne⟩

end Rows

section Polls

variable {poll : Poll} {s t : Table} {batches : List Batch} {x : Option (Exit Error Unit)} {alive : Bool}
  {good : Answers} {stocks : Decimal → Bool} {rows : List OutboxEvent} {tasks : EventTasks}

/-- Every row of the batch is attempted, and its status is what its handler makes of it by itself.
No other row has changed. -/
structure Batch.Isolated (b : Batch) : Prop where
  attempted : ∀ row ∈ b.rows, ∃ y, (OutboxEventModel.from row, .ended y) ∈ b.tasks ∧
    Effect.Runs (Table.alone b.stocks) (handle b.poll (OutboxEventModel.from row))
      (b.before.status (rowKey row)) y (b.after.status (rowKey row))
  others : ∀ key, key ∉ b.rows.map rowKey → b.after.status key = b.before.status key

def Batch.Harmless (b : Batch) : Prop := ∀ row ∈ b.rows, Poller.Harmless b.stocks b.poll row

theorem harmless_events (hrows : ∀ row ∈ rows, Harmless stocks poll row) :
    ∀ event ∈ rows.map OutboxEventModel.from, Builds poll event ∧ Calm stocks poll event := by
  intro event hevent
  obtain ⟨row, hrow, rfl⟩ := List.mem_map.mp hevent
  exact harmless_iff.mpr (hrows row hrow)

/-- A batch of harmless rows goes on until it is over. -/
theorem batch_ends (hrows : ∀ row ∈ rows, Harmless stocks poll row) (hfinds : s.Finds poll.status rows)
    (h : Steps 5 (handle poll) (Table.exec stocks) (start (rows.map OutboxEventModel.from), s) (tasks, t)) :
    Inevitable (Step 5 (handle poll) (Table.exec stocks)) (fun w => Over w.1) (tasks, t) :=
  over_inevitable (by decide) (Table.exec_exists stocks)
    (fun event hevent => handle_ends (harmless_events hrows event hevent).1 (harmless_events hrows event hevent).2)
    (fun _ _ _ _ => Table.exec_replies) (hfinds.nodup.of_map eventKey) h

theorem batch_not_hangs (hrows : ∀ row ∈ rows, Harmless stocks poll row) (hfinds : s.Finds poll.status rows)
    (h : Steps 5 (handle poll) (Table.answered good stocks) (start (rows.map OutboxEventModel.from), s) (tasks, t))
    (hover : ¬ Over tasks) : ∃ w, Step 5 (handle poll) (Table.exec stocks) (tasks, t) w := by
  cases batch_ends hrows hfinds (h.mono (fun _ _ _ _ hc => hc.1)) with
  | now hnow => exact absurd hnow hover
  | later hstep _ => exact hstep

theorem HandleEvents.isolated (h : HandleEvents Marks poll s batches x t)
    (hharmless : ∀ b ∈ batches, b.Harmless) : (∀ b ∈ batches, b.Isolated) ∧ x = some (.success ()) := by
  cases h with
  | rejected => exact ⟨by simp, rfl⟩
  | @hangs _ rows stocks tasks hfinds hsteps hover hstuck =>
    have hrows : ∀ row ∈ rows, Harmless stocks poll row := by simpa [Batch.Harmless] using hharmless
    obtain ⟨w, hstep⟩ := batch_not_hangs hrows hfinds hsteps hover
    exact absurd hstep (hstuck w)
  | @read _ rows stocks tasks hfinds hsteps hover =>
    have hrows : ∀ row ∈ rows, Harmless stocks poll row := by simpa [Batch.Harmless] using hharmless
    have hevents := harmless_events hrows
    have hnodup := hfinds.nodup
    obtain ⟨hothers, halone⟩ := (separate Marks stocks poll).steps hsteps hnodup
    have hsuccess := Steps.success (fun event hevent =>
        handle_success (hevents event hevent).1 (hevents event hevent).2)
      (fun _ _ _ _ => Table.answered_good) (hnodup.of_map eventKey) hsteps hover
    refine ⟨?_, ?_⟩
    · rw [List.forall_mem_singleton]
      refine ⟨fun row hrow => ?_, fun key hkey => hothers key (by rwa [List.map_map])⟩
      have hm : OutboxEventModel.from row ∈ tasks.map Prod.fst := by
        rw [hsteps.map_fst]
        simpa [start, Function.comp_def] using ⟨row, hrow, rfl⟩
      obtain ⟨⟨event, task⟩, hp, rfl⟩ := List.mem_map.mp hm
      obtain ⟨a, rfl⟩ := hsuccess _ hp
      exact ⟨_, hp, halone _ hp⟩
    · obtain ⟨as, has⟩ := outcome_success hsuccess
      rw [has]
      rfl

theorem HandleEvents.not_success (h : HandleEvents Marks poll s batches x t)
    (hharmful : ¬ ∀ b ∈ batches, b.Harmless) : x ≠ some (.success ()) := by
  cases h with
  | rejected => exact absurd (by simp) hharmful
  | hangs => rintro ⟨⟩
  | @read _ rows stocks tasks hfinds hsteps hover =>
    have hrow : ∃ row ∈ rows, ¬ Harmless stocks poll row := by simpa [Batch.Harmless] using hharmful
    obtain ⟨row, hrow, hrowharmful⟩ := hrow
    have hall : ∀ event ∈ rows.map OutboxEventModel.from,
        Effect.Within (fun c r => Replies stocks c r ∧ Marks stocks c r) (fun _ => True)
          (fun y => y = .defect ∨ ((∃ a, y = .success a) ∧ Builds poll event ∧ Calm stocks poll event))
          (handle poll event) := by
      intro event _
      by_cases hb : Builds poll event ∧ Calm stocks poll event
      · exact (handle_success hb.1 hb.2).mono (fun _ hc => hc) (fun y hy => .inr ⟨hy, hb⟩)
      · exact (handle_not_success hb).mono (fun _ hc => hc) (fun y hy => .inl hy)
    have hdefect : outcome tasks = .defect := by
      refine Steps.defect hall (fun event e hq => ?_) (fun _ _ _ _ => Table.answered_good)
        (hfinds.nodup.of_map eventKey) hsteps hover (List.mem_map_of_mem hrow) (fun a hq => ?_)
      · obtain hq | ⟨⟨a, hq⟩, _⟩ := hq <;> cases hq
      · obtain hq | ⟨_, hb⟩ := hq
        · cases hq
        · exact hrowharmful (harmless_iff.mp hb)
    rw [hdefect]
    rintro ⟨⟩

theorem PollEvents.isolated (h : PollEvents Marks s batches x t)
    (hharmless : ∀ b ∈ batches, b.Harmless) : (∀ b ∈ batches, b.Isolated) ∧ x = some (.success ()) := by
  cases h with
  | first hinit hx => exact absurd (hinit.isolated hharmless).2 hx
  | both hinit hfail =>
    obtain ⟨hharmless, hharmless'⟩ := List.forall_mem_append.mp hharmless
    obtain ⟨hisolated, _⟩ := hinit.isolated hharmless
    obtain ⟨hisolated', hx⟩ := hfail.isolated hharmless'
    exact ⟨List.forall_mem_append.mpr ⟨hisolated, hisolated'⟩, hx⟩

theorem PollEvents.harmless (h : PollEvents Marks s batches (some (.success ())) t) :
    ∀ b ∈ batches, b.Harmless := by
  cases h with
  | first _ hx => exact absurd rfl hx
  | both hinit hfail =>
    refine List.forall_mem_append.mpr ⟨?_, ?_⟩
    · by_contra hharmful
      exact hinit.not_success hharmful rfl
    · by_contra hharmful
      exact hfail.not_success hharmful rfl

theorem OnModuleInit.isolated (h : OnModuleInit Marks batches alive)
    (hharmless : ∀ b ∈ batches, b.Harmless) : (∀ b ∈ batches, b.Isolated) ∧ alive = true := by
  induction h with
  | fork => simp
  | completes _ hpoll ih =>
    obtain ⟨hharmless, hharmless'⟩ := List.forall_mem_append.mp hharmless
    exact ⟨List.forall_mem_append.mpr ⟨(ih hharmless).1, (hpoll.isolated hharmless').1⟩, rfl⟩
  | stops _ hpoll hx _ => exact absurd (hpoll.isolated (List.forall_mem_append.mp hharmless).2).2 hx

theorem OnModuleInit.harmless (h : OnModuleInit Marks batches alive) (halive : alive = true) :
    ∀ b ∈ batches, b.Harmless := by
  induction h with
  | fork => simp
  | completes _ hpoll ih => exact List.forall_mem_append.mpr ⟨ih rfl, hpoll.harmless⟩
  | stops _ _ _ _ => cases halive

theorem HandleEvents.completes (h : HandleEvents good poll s batches x t)
    (hharmless : ∀ b ∈ batches, b.Harmless) : x = some (.success ()) := by
  cases h with
  | rejected => rfl
  | @hangs _ rows stocks tasks hfinds hsteps hover hstuck =>
    have hrows : ∀ row ∈ rows, Harmless stocks poll row := by simpa [Batch.Harmless] using hharmless
    obtain ⟨w, hstep⟩ := batch_not_hangs hrows hfinds hsteps hover
    exact absurd hstep (hstuck w)
  | @read _ rows stocks tasks hfinds hsteps hover =>
    have hrows : ∀ row ∈ rows, Harmless stocks poll row := by simpa [Batch.Harmless] using hharmless
    have hevents := harmless_events hrows
    have hends := Steps.ends (fun event hevent => handle_ends (hevents event hevent).1 (hevents event hevent).2)
      (fun _ _ _ _ hc => (Table.answered_good hc).1) (hfinds.nodup.of_map eventKey) hsteps
    have hne : outcome tasks ≠ .defect := by
      refine outcome_ne_defect ?_
      rintro ⟨event, task⟩ hp rfl
      exact (hends _ hp).2 rfl
    cases hout : outcome tasks with
    | success as => rfl
    | failure e => rfl
    | defect => exact absurd hout hne

theorem PollEvents.completes (h : PollEvents good s batches x t)
    (hharmless : ∀ b ∈ batches, b.Harmless) : x = some (.success ()) := by
  cases h with
  | first hinit _ => exact hinit.completes hharmless
  | both _ hfail => exact hfail.completes (List.forall_mem_append.mp hharmless).2

/-- Whatever is rejected, an update to `FAIL` too, the fiber goes on when what is read is
harmless. -/
theorem OnModuleInit.alive_of_harmless (h : OnModuleInit good batches alive)
    (hharmless : ∀ b ∈ batches, b.Harmless) : alive = true := by
  cases h with
  | fork => rfl
  | completes _ _ => rfl
  | stops _ hpoll hx => exact absurd (hpoll.completes (List.forall_mem_append.mp hharmless).2) hx

theorem OnModuleInit.survives_orders (h : OnModuleInit good batches alive)
    (hrows : ∀ b ∈ batches, ∀ row ∈ b.rows, ∃ info : CreateOrderInfo, Holds info.toJson row.payload ∧
      (row.eventType = OutboxEventTypes.orderSuccess ∨ row.eventType ∈ keyedTypes)) : alive = true := by
  refine h.alive_of_harmless (fun b hb row hrow => ?_)
  obtain ⟨info, hholds, htype⟩ := hrows b hb row hrow
  exact harmless_of_holds b.stocks b.poll hholds htype

/-- In every run in which no update to `FAIL` is rejected, and no restoring transaction fails before
something is thrown in it, the rows are isolated and the fiber goes on as long as what is read is
harmless, and no longer. A batch of harmless rows comes to its end in any case. -/
theorem poller_survives_iff (h : OnModuleInit Marks batches alive) :
    (∀ (poll : Poll) (stocks : Decimal → Bool) (s t : Table) (rows : List OutboxEvent) (tasks : EventTasks),
      (∀ row ∈ rows, Harmless stocks poll row) → s.Finds poll.status rows →
      Steps 5 (handle poll) (Table.exec stocks) (start (rows.map OutboxEventModel.from), s) (tasks, t) →
      Inevitable (Step 5 (handle poll) (Table.exec stocks)) (fun w => Over w.1) (tasks, t)) ∧
    ((∀ b ∈ batches, b.Isolated) ∧ alive = true ↔
      ∀ b ∈ batches, ∀ row ∈ b.rows, Harmless b.stocks b.poll row) :=
  ⟨fun _ _ _ _ _ _ => batch_ends, fun hs => h.harmless hs.2, h.isolated⟩

def paidRow : OutboxEvent := ⟨"order-7", OutboxEventTypes.orderSuccess, .object [], .init⟩

def failedRow : OutboxEvent := ⟨"order-6", OutboxEventTypes.orderFailed, .object [], .init⟩

def createdRow : OutboxEvent :=
  ⟨"order-5", OutboxEventTypes.orderCreated, .object [("order", .object [("id", .number ⟨5, 0, by decide⟩)])], .init⟩

def lostRow : OutboxEvent :=
  ⟨"order-4", OutboxEventTypes.orderCreated, .object [("order", .object [("id", .number ⟨4, 0, by decide⟩)])], .fail⟩

def mixedTable : Table := ⟨[createdRow, paidRow, lostRow], by decide⟩

def createdKey : Option Value := some (.number ⟨5, 0, by decide⟩)

theorem handle_createdRow : ∃ k k₂ k₃ k₄ : Bool → Handling Unit,
    handle .handleInitEvents (OutboxEventModel.from createdRow) = .perform (.emit OutboxEventTypes.orderCreated
      createdKey (OutboxEventModel.from createdRow).payload) k ∧
    k false = .perform (.emit OutboxEventTypes.orderCreated createdKey
      (OutboxEventModel.from createdRow).payload) k₂ ∧
    k₂ false = .perform (.emit OutboxEventTypes.orderCreated createdKey
      (OutboxEventModel.from createdRow).payload) k₃ ∧
    k₃ false = .perform (.emit OutboxEventTypes.orderCreated createdKey
      (OutboxEventModel.from createdRow).payload) k₄ ∧ k₄ false = .succeed () := by
  have hparse : OutboxPollingService.parsePayload (OutboxEventModel.from createdRow).payload =
      some createdRow.payload := parsePayload_stringify _
  have hproduce : OutboxPollingService.produceEvent (OutboxEventModel.from createdRow) createdRow.payload =
      produce OutboxEventTypes.orderCreated createdKey (OutboxEventModel.from createdRow) := rfl
  simp only [handle, OutboxPollingService.createEventHandler, OutboxPollingService.processOutboxEvent,
    hparse, hproduce]
  exact ⟨_, _, _, _, rfl, rfl, rfl, rfl, rfl⟩

theorem handle_paidRow : ∃ k : Bool → Handling Unit,
    handle .handleInitEvents (OutboxEventModel.from paidRow) =
      .perform (.update "order-7" OutboxEventTypes.orderSuccess .success) k ∧ k true = .succeed () := by
  have hparse : OutboxPollingService.parsePayload (OutboxEventModel.from paidRow).payload =
      some (.object []) := parsePayload_stringify _
  have hproduce : OutboxPollingService.produceEvent (OutboxEventModel.from paidRow) (.object []) =
      .succeed () := rfl
  simp only [handle, OutboxPollingService.createEventHandler, OutboxPollingService.processOutboxEvent,
    hparse, hproduce]
  exact ⟨_, rfl, rfl⟩

theorem handle_lostRow : ∃ (k k₂ k₃ k₄ : Settlement → Handling Unit) (l : Bool → Handling Unit),
    handle .handleFailedEvents (OutboxEventModel.from lostRow) =
      .perform (.compensate (OutboxEventModel.from lostRow) lostRow.payload) k ∧
    k .rejected = .perform (.compensate (OutboxEventModel.from lostRow) lostRow.payload) k₂ ∧
    k₂ .rejected = .perform (.compensate (OutboxEventModel.from lostRow) lostRow.payload) k₃ ∧
    k₃ .rejected = .perform (.compensate (OutboxEventModel.from lostRow) lostRow.payload) k₄ ∧
    k₄ .rejected = .perform (.update "order-4" OutboxEventTypes.orderCreated .fail) l ∧
    l true = .succeed () := by
  have hraw : OutboxPollingService.rawPayload (OutboxEventModel.from lostRow).payload =
      some lostRow.payload := rawPayload_stringify _
  simp only [handle, OutboxPollingService.createEventHandler, OutboxPollingService.executeCompensation, hraw]
  exact ⟨_, _, _, _, _, rfl, rfl, rfl, rfl, rfl, rfl⟩

def paidTable : Table := mixedTable.update (rowKey paidRow) .success

theorem mixed_steps : Steps 5 (handle .handleInitEvents) (Table.answered Marks (fun _ => true))
    (start ([createdRow, paidRow].map OutboxEventModel.from), mixedTable)
    ([(OutboxEventModel.from createdRow, .ended (.success ())),
      (OutboxEventModel.from paidRow, .ended (.success ()))], paidTable) := by
  obtain ⟨k, k₂, k₃, k₄, hhandle, hk, hk₂, hk₃, hk₄⟩ := handle_createdRow
  obtain ⟨l, hpaid, hl⟩ := handle_paidRow
  have hemit : ∀ s, Table.answered Marks (fun _ => true) (.emit OutboxEventTypes.orderCreated createdKey
      (OutboxEventModel.from createdRow).payload) s false s := fun s => ⟨rfl, trivial⟩
  have hupdate : Table.answered Marks (fun _ => true)
      (.update "order-7" OutboxEventTypes.orderSuccess .success) mixedTable true paidTable :=
    ⟨⟨by decide, rfl⟩, trivial⟩
  refine .head (.quiet [] [_] .begin rfl (by simp) (by simp)) ?_
  refine .head (.quiet [_] [] .begin rfl (by simp) (by simp)) ?_
  rw [hhandle, hpaid]
  refine .head (.quiet [] [_] (.call (hemit _)) rfl (by simp) (by simp)) ?_
  rw [hk]
  refine .head (.quiet [_] [] (.call hupdate) rfl (by simp) (by simp)) ?_
  rw [hl]
  refine .head (.quiet [] [_] (.call (hemit _)) rfl (by simp) (by simp)) ?_
  rw [hk₂]
  refine .head (.quiet [] [_] (.call (hemit _)) rfl (by simp) (by simp)) ?_
  rw [hk₃]
  refine .head (.quiet [] [_] (.call (hemit _)) rfl (by simp) (by simp)) ?_
  rw [hk₄]
  refine .head (.quiet [_] [] .succeed rfl (by simp) (by simp)) ?_
  exact .single (.quiet [] [_] .succeed rfl (by simp) (by simp))

theorem lost_steps : Steps 5 (handle .handleFailedEvents) (Table.answered Marks (fun _ => true))
    (start ([lostRow].map OutboxEventModel.from), paidTable)
    ([(OutboxEventModel.from lostRow, .ended (.success ()))], paidTable.update (rowKey lostRow) .fail) := by
  obtain ⟨k, k₂, k₃, k₄, l, hhandle, hk, hk₂, hk₃, hk₄, hl⟩ := handle_lostRow
  have htype : (OutboxEventModel.from lostRow).eventType ≠ OutboxEventTypes.orderPayment := by decide
  have hcompensate : Table.answered Marks (fun _ => true)
      (.compensate (OutboxEventModel.from lostRow) lostRow.payload) paidTable .rejected paidTable :=
    ⟨⟨htype, rfl⟩, by rintro ⟨⟩⟩
  have hupdate : Table.answered Marks (fun _ => true) (.update "order-4" OutboxEventTypes.orderCreated .fail)
      paidTable true (paidTable.update (rowKey lostRow) .fail) := ⟨⟨by decide, rfl⟩, rfl⟩
  refine .head (.quiet [] [] .begin rfl (by simp) (by simp)) ?_
  rw [hhandle]
  refine .head (.quiet [] [] (.call hcompensate) rfl (by simp) (by simp)) ?_
  rw [hk]
  refine .head (.quiet [] [] (.call hcompensate) rfl (by simp) (by simp)) ?_
  rw [hk₂]
  refine .head (.quiet [] [] (.call hcompensate) rfl (by simp) (by simp)) ?_
  rw [hk₃]
  refine .head (.quiet [] [] (.call hcompensate) rfl (by simp) (by simp)) ?_
  rw [hk₄]
  refine .head (.quiet [] [] (.call hupdate) rfl (by simp) (by simp)) ?_
  rw [hl]
  exact .single (.quiet [] [] .succeed rfl (by simp) (by simp))

/-- Two of the three rows fail, and the fiber goes on. -/
theorem poller_survives_paid : ∃ batches, OnModuleInit Marks batches true ∧
    batches.map (·.rows) = [[createdRow, paidRow], [lostRow]] ∧ ∀ b ∈ batches, b.Isolated := by
  have hinit : mixedTable.Finds .init [createdRow, paidRow] := ⟨[createdRow, paidRow], .refl _, rfl⟩
  have hfail : paidTable.Finds .fail [lostRow] := ⟨[lostRow], .refl _, rfl⟩
  have hfiber : OnModuleInit Marks _ true :=
    .completes .fork (.both (.read hinit mixed_steps (by simp [Over, Task.isOver]))
      (.read hfail lost_steps (by simp [Over, Task.isOver])))
  refine ⟨_, hfiber, rfl, ((poller_survives_iff hfiber).2.mpr (fun b hb row hrow => ?_)).1⟩
  obtain rfl | rfl := by simpa using hb
  · obtain rfl | rfl := by simpa using hrow
    · exact ⟨⟨createdRow.payload, rfl, fun _ => .inr ⟨by decide, by rintro ⟨⟩⟩⟩, by rintro ⟨⟩⟩
    · exact ⟨⟨.object [], rfl, fun _ => .inl rfl⟩, by rintro ⟨⟩⟩
  · obtain rfl := by simpa using hrow
    exact ⟨⟨lostRow.payload, rfl, by rintro ⟨⟩⟩, fun _ htype => absurd htype (by decide)⟩

def failedTable : Table := ⟨[failedRow, paidRow], by decide⟩

/-- The second row is not attempted, and the fiber ends, though no call is rejected. -/
theorem poller_dies : ∃ b, OnModuleInit Marks [b] false ∧ b.rows = [failedRow, paidRow] ∧ ¬ b.Isolated := by
  have hdie : handle .handleInitEvents (OutboxEventModel.from failedRow) = .die := by
    refine handle_die (fun hb => ?_)
    obtain ⟨payload, _, htype⟩ := builds_iff.mp hb
    obtain htype | ⟨htype, _⟩ := htype rfl
    · exact absurd htype (by decide)
    · exact absurd htype (by decide)
  have hsteps : Steps 5 (handle .handleInitEvents) (Table.answered Marks (fun _ => true))
      (start ([failedRow, paidRow].map OutboxEventModel.from), failedTable)
      ([(OutboxEventModel.from failedRow, .ended .defect),
        (OutboxEventModel.from paidRow, .interrupted)], failedTable) := by
    refine .head (.first .begin (by decide)) ?_
    rw [hdie]
    exact .single (.first .die (by decide))
  have hfinds : failedTable.Finds .init [failedRow, paidRow] :=
    ⟨[failedRow, paidRow], .refl _, rfl⟩
  have hfiber : OnModuleInit Marks _ false :=
    .stops .fork (.first (.read hfinds hsteps (by simp [Over, Task.isOver])) (by rintro ⟨⟩)) (by rintro ⟨⟩)
  refine ⟨_, hfiber, rfl, fun h => ?_⟩
  obtain ⟨y, hy, _⟩ := h.attempted paidRow (by simp)
  have heq : OutboxEventModel.from paidRow = OutboxEventModel.from failedRow := by
    simp at hy
    exact hy.1
  exact absurd (congrArg (·.aggregateId) heq) (by decide)

def hiddenRow : OutboxEvent := ⟨"order-1", OutboxEventTypes.orderPayment,
  .object [("order", .object [("id", .number ⟨1, 0, by decide⟩)]), ("orderItems", .array [.object
    [("productId", .number ⟨1, 0, by decide⟩), ("quantity", .object [("toString", .bool true)])]])], .fail⟩

def hiddenTable : Table := ⟨[hiddenRow], by decide⟩

/-- The transaction is never settled, and the fiber waits for it. -/
theorem poller_hangs : ∃ b, OnModuleInit Marks [b] false ∧ b.rows = [hiddenRow] ∧
    ∀ row ∈ b.rows, Readable b.poll row := by
  have hraw : OutboxPollingService.rawPayload (OutboxEventModel.from hiddenRow).payload =
      some hiddenRow.payload := rawPayload_stringify _
  have hhandle : ∃ (k : Settlement → Handling Unit) (l : Empty → Handling Unit),
      handle .handleFailedEvents (OutboxEventModel.from hiddenRow) =
        .perform (.compensate (OutboxEventModel.from hiddenRow) hiddenRow.payload) k ∧
      k .pending = .perform .never l := by
    simp only [handle, OutboxPollingService.createEventHandler, OutboxPollingService.executeCompensation, hraw]
    exact ⟨_, _, rfl, rfl⟩
  obtain ⟨k, l, hhandle, hk⟩ := hhandle
  have hcompensate : Table.answered Marks (fun _ => true)
      (.compensate (OutboxEventModel.from hiddenRow) hiddenRow.payload) hiddenTable .pending hiddenTable :=
    ⟨⟨⟨rfl, by decide⟩, rfl⟩, by rintro ⟨⟩⟩
  have hsteps : Steps 5 (handle .handleFailedEvents) (Table.answered Marks (fun _ => true))
      (start ([hiddenRow].map OutboxEventModel.from), hiddenTable)
      ([(OutboxEventModel.from hiddenRow, .running (.perform .never l))], hiddenTable) := by
    refine .head (.quiet [] [] .begin rfl (by simp) (by simp)) ?_
    rw [hhandle, ← hk]
    exact .single (.quiet [] [] (.call hcompensate) rfl (by simp) (by simp))
  have hstuck : ∀ w, ¬ Step 5 (handle .handleFailedEvents) (Table.exec (fun _ => true))
      ([(OutboxEventModel.from hiddenRow, .running (.perform .never l))], hiddenTable) w := by
    intro w hstep
    generalize hstart : ([(OutboxEventModel.from hiddenRow, Task.running (.perform .never l))] : EventTasks) =
      tasks at hstep
    cases hstep with
    | @move front back x task _ _ _ hmove _ =>
      cases front with
      | cons _ front => simp at hstart
      | nil =>
        obtain ⟨⟨rfl, rfl⟩, rfl⟩ := by simpa using hstart
        cases hmove with
        | @call _ _ _ _ r _ => exact Empty.elim r
  have hfinds : hiddenTable.Finds .fail [hiddenRow] := ⟨[hiddenRow], .refl _, rfl⟩
  have hfiber : OnModuleInit Marks _ false :=
    .stops .fork (.both .rejected (.hangs hfinds hsteps (by simp [Over, Task.isOver]) hstuck)) (by rintro ⟨⟩)
  refine ⟨_, hfiber, rfl, fun row hrow => ?_⟩
  obtain rfl := List.mem_singleton.mp hrow
  exact ⟨hiddenRow.payload, rfl, by rintro ⟨⟩⟩

end Polls

section Saga

inductive TypeShows : String → Models.OutboxEventType → Prop
  | orderCreated : TypeShows OutboxEventTypes.orderCreated .orderCreated
  | orderPayment : TypeShows OutboxEventTypes.orderPayment .orderPayment
  | orderDeductStock : TypeShows OutboxEventTypes.orderDeductStock .orderDeductStock
  | orderSuccess : TypeShows OutboxEventTypes.orderSuccess .orderSuccess
  | orderFailed : TypeShows OutboxEventTypes.orderFailed .orderFailed
  | other {text : String} : text ∉ keyedTypes → text ≠ OutboxEventTypes.orderSuccess →
      TypeShows text (.other text)

structure EventShows (info : CreateOrderInfo) (row : OutboxEvent) (event : Models.OutboxEventModel) :
    Prop where
  holds : Holds info.toJson row.payload
  eventType : TypeShows row.eventType event.eventType
  payload : ∃ j, Shows row.payload j ∧ event.payload = j.stringify

variable {poll : Poll} {info : CreateOrderInfo} {row : OutboxEvent} {event : Models.OutboxEventModel}

theorem handle_die_iff {event : OutboxEventModel} : handle poll event = .die ↔ ¬ Builds poll event := by
  refine ⟨fun hdie hb => ?_, handle_die⟩
  have hw : Effect.Within Effect.anyAnswer (fun _ => True) (· ≠ .defect) (handle poll event) :=
    within_handle (fun _ _ _ => trivial) (fun _ _ _ _ => trivial) hb (by rintro ⟨⟩) (fun _ => by rintro ⟨⟩)
  rw [hdie] at hw
  exact hw rfl

theorem readable_iff (hrow : Holds info.toJson row.payload) : Readable .handleInitEvents row ↔
    row.eventType = OutboxEventTypes.orderSuccess ∨ row.eventType ∈ keyedTypes := by
  refine ⟨fun ⟨_, _, htype⟩ => ?_, readable_of_holds .handleInitEvents hrow⟩
  exact (htype rfl).imp_right (fun hkeyed => hkeyed.1)

theorem EventShows.throws_iff (h : EventShows info row event) :
    poll.handle event = .die ↔ handle poll (OutboxEventModel.from row) = .die := by
  obtain ⟨j, hj, hpayload⟩ := h.payload
  obtain ⟨model, _, hparse, hraw, _⟩ := hj.decoded h.holds
  rw [handle_die_iff, builds_iff]
  have htype := h.eventType
  cases poll with
  | handleInitEvents =>
    rw [readable_iff h.holds]
    generalize row.eventType = text at htype
    simp only [Poll.handle, OutboxPolling.createEventHandler, OutboxPolling.processOutboxEvent,
      hpayload, hparse, OutboxPolling.produceEvent]
    generalize event.eventType = eventType at htype
    cases htype with
    | orderCreated => exact ⟨by rintro ⟨⟩, fun hn => absurd (.inr (by decide)) hn⟩
    | orderPayment => exact ⟨by rintro ⟨⟩, fun hn => absurd (.inr (by decide)) hn⟩
    | orderDeductStock => exact ⟨by rintro ⟨⟩, fun hn => absurd (.inr (by decide)) hn⟩
    | orderSuccess => exact ⟨by rintro ⟨⟩, fun hn => absurd (.inl rfl) hn⟩
    | orderFailed => exact ⟨fun _ => by decide, fun _ => rfl⟩
    | other hkeyed hsuccess => exact ⟨fun _ => not_or.mpr ⟨hsuccess, hkeyed⟩, fun _ => rfl⟩
  | handleFailedEvents =>
    have hread : Readable .handleFailedEvents row :=
      ⟨_, content_holds (by rintro s ⟨⟩) h.holds, by rintro ⟨⟩⟩
    refine ⟨fun hdie => ?_, fun hn => absurd hread hn⟩
    have horder : (Models.Json.order model).asOrder = some model := rfl
    simp only [Poll.handle, OutboxPolling.createEventHandler, OutboxPolling.executeCompensation,
      hpayload, hraw, horder, OutboxPolling.compensate] at hdie
    by_cases hpayment : event.eventType = .orderPayment
    · rw [if_pos hpayment] at hdie
      cases hdie
    · rw [if_neg hpayment] at hdie
      cases hdie

theorem TypeShows.payment_iff {text : String} {eventType : Models.OutboxEventType}
    (h : TypeShows text eventType) : text = OutboxEventTypes.orderPayment ↔ eventType = .orderPayment := by
  cases h with
  | orderCreated => decide
  | orderPayment => decide
  | orderDeductStock => decide
  | orderSuccess => decide
  | orderFailed => decide
  | other hkeyed _ =>
    refine iff_of_false ?_ (by rintro ⟨⟩)
    rintro rfl
    exact hkeyed (by decide)

/-- The saga's compensation of the event is settled in one of these ways: carried out for a payment
only when the restoring transaction has committed, and swallowed when it is rejected. -/
theorem EventShows.compensates {w w' : Saga.World} {x : Exit Error Unit} {model : Models.CreateOrderInfo}
    (h : EventShows info row event) (stocks : Decimal → Bool)
    (hr : Effect.Runs Saga.World.exec (OutboxPolling.compensate event.eventType (some model)) w x w') :
    ∃ settlement, Compensates stocks (OutboxEventModel.from row) info.toJson settlement ∧
      ((settlement = .carriedOut ∧ x = .success () ∧ (event.eventType = .orderPayment → ∃ t,
          Effect.Runs Database.Store.exec (OutboxPolling.restoring model) w.store (.success ()) t ∧
          w' = w.commit (.restoreStock model.order.id) t)) ∨
        (settlement = .swallowed ∧ x = .success ()) ∨ (settlement = .rejected ∧ ∃ e, x = .failure e)) := by
  have htype := h.eventType.payment_iff
  by_cases hpayment : event.eventType = .orderPayment
  · have hrow : (OutboxEventModel.from row).eventType = OutboxEventTypes.orderPayment := htype.mpr hpayment
    rw [OutboxPolling.compensate, if_pos hpayment, Backend.PrismaService.transaction] at hr
    simp only [Effect.catchAll, Effect.runs_perform] at hr
    obtain ⟨r, u, hcall, hk⟩ := hr
    cases r with
    | resolved a =>
      obtain ⟨rfl, rfl⟩ := Effect.runs_succeed.mp hk
      obtain ⟨t, ht, rfl⟩ := hcall
      have hrestoring := TransactionEffects.runs_effectWithTransaction.mp ht
      refine ⟨.carriedOut, ?_, .inl ⟨rfl, rfl, fun _ => ⟨t, hrestoring, rfl⟩⟩⟩
      rw [Compensates, if_pos hrow, orderItems_order]
      exact ⟨by rintro ⟨⟩, addStocksThrows_order stocks info⟩
    | rejected e =>
      have hconflict := SagaCalls.rejection_conflict (TransactionEffects.restoring_confined model) ⟨w, u, hcall⟩
      simp only [Effect.catchAll, hconflict, if_true] at hk
      obtain ⟨rfl, rfl⟩ := Effect.runs_succeed.mp hk
      exact ⟨.swallowed, hrow, .inr (.inl ⟨rfl, rfl⟩)⟩
  · have hrow : (OutboxEventModel.from row).eventType ≠ OutboxEventTypes.orderPayment :=
      fun ht => hpayment (htype.mp ht)
    rw [OutboxPolling.compensate, if_neg hpayment] at hr
    obtain ⟨r, u, _, hk⟩ := Effect.runs_perform.mp hr
    cases r with
    | none =>
      obtain ⟨rfl, rfl⟩ := Effect.runs_fail.mp hk
      exact ⟨.rejected, hrow, .inr (.inr ⟨rfl, _, rfl⟩)⟩
    | some v =>
      obtain ⟨rfl, rfl⟩ := Effect.runs_succeed.mp hk
      refine ⟨.carriedOut, ?_, .inl ⟨rfl, rfl, fun ht => absurd ht hpayment⟩⟩
      rw [Compensates, if_neg hrow, orderId_order]
      rintro ⟨⟩

end Saga

end EcommerceService.Poller
