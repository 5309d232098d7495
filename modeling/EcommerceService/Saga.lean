import EcommerceService.Lib.Pool
import EcommerceService.OutboxPolling

namespace EcommerceService.Saga

open EcommerceService.Effects EcommerceService.Errors EcommerceService.Models
open EcommerceService.Database EcommerceService.Repositories EcommerceService.Backend
open EcommerceService.Services EcommerceService.Facades EcommerceService.OutboxPolling
open EcommerceService.Pool

structure Message where
  eventType : OutboxEventType
  key : ℕ
  value : Json
deriving DecidableEq, Repr

/-- The tables, the messages Kafka has taken, and the events that pollers have read and
not begun to handle. -/
structure World where
  store : Store
  published : List Message
  batches : List (Poll × OutboxEventModel)

namespace World

def commit (w : World) (kind : TransactionKind) (t : Store) : World :=
  { w with store := { t with journal := t.journal ++ [.committed kind] } }

def publish (w : World) (eventType : OutboxEventType) (key : ℕ) (value : Json) : World :=
  { w with
    store := { w.store with journal := w.store.journal ++ [.published eventType key] }
    published := w.published ++ [⟨eventType, key, value⟩] }

/-- A call on the world. A transaction is atomic. A call that is reported to have failed
has done nothing, or only its acknowledgement is lost. -/
def exec : (c : Call) → World → c.Reply → World → Prop
  | .statement q, w, some v, w' => ∃ t, Store.exec q w.store (some v) t ∧ w' = { w with store := t }
  | .statement q, w, none, w' => w' = w ∨
      ∃ v t, Store.exec q w.store (some v) t ∧ w' = { w with store := t }
  | .transaction kind _ body, w, .resolved a, w' =>
      ∃ t, Effect.Runs Store.exec body w.store (.success a) t ∧ w' = w.commit kind t
  | .transaction _ _ body, w, .rejected (some e), w' =>
      (∃ t, Effect.Runs Store.exec body w.store (.failure e) t) ∧ w' = w
  | .transaction kind _ body, w, .rejected none, w' => w' = w ∨
      ∃ a t, Effect.Runs Store.exec body w.store (.success a) t ∧ w' = w.commit kind t
  | .emit eventType key value, w, sent, w' =>
      (sent = false ∧ w' = w) ∨ w' = w.publish eventType key value

end World

/-- What a call may do to the world, whatever is reported of it. -/
inductive World.Change : Call → World → World → Prop
  | same {c : Call} {w : World} : Change c w w
  | statement {q : Query} {v : q.Answer} {w : World} {t : Store} :
      Store.exec q w.store (some v) t → Change (.statement q) w { w with store := t }
  | commit {kind : TransactionKind} {A : Type} {body : Statements A} {a : A} {w : World} {t : Store} :
      Effect.Runs Store.exec body w.store (.success a) t →
      Change (.transaction kind A body) w (w.commit kind t)
  | publish {eventType : OutboxEventType} {key : ℕ} {value : Json} {w : World} :
      Change (.emit eventType key value) w (w.publish eventType key value)

theorem World.exec_change {c : Call} {w w' : World} {r : c.Reply} (h : World.exec c w r w') :
    World.Change c w w' := by
  cases c with
  | statement q =>
    cases r with
    | some v =>
      obtain ⟨t, ht, rfl⟩ := h
      exact .statement ht
    | none =>
      obtain rfl | ⟨v, t, ht, rfl⟩ := h
      · exact .same
      · exact .statement ht
  | transaction kind A body =>
    match r with
    | .resolved a =>
      obtain ⟨t, ht, rfl⟩ := h
      exact .commit ht
    | .rejected (some e) =>
      obtain ⟨_, rfl⟩ := h
      exact .same
    | .rejected none =>
      obtain rfl | ⟨a, t, ht, rfl⟩ := h
      · exact .same
      · exact .commit ht
  | emit eventType key value =>
    obtain ⟨_, rfl⟩ | rfl := h
    · exact .same
    · exact .publish

/-- The work of a process: to place an order, to handle a message, to handle an event of
a batch. -/
inductive Job where
  | order (userId : ℕ) (orderItems : List CreateOrderItemCommand)
  | message (m : Message)
  | event (poll : Poll) (event : OutboxEventModel)
deriving DecidableEq, Repr

def Job.program : Job → Service Unit
  | order userId orderItems => (OrderFacade.order userId orderItems).asVoid
  | message m =>
      match m.eventType with
      | .orderCreated => handleOrderCreated (received m.value)
      | .orderDeductStock => handleDeductStock (received m.value)
      | .orderPayment => handleOrderPayment (received m.value)
      | _ => .succeed ()
  | event poll e => poll.handle e

/-- A message is handled any number of times, an event of a batch once. -/
def Job.start : Job → World → World → Prop
  | order _ _, w, w' => w' = w
  | message m, w, w' => m ∈ w.published ∧ w' = w
  | event poll e, w, w' => (poll, e) ∈ w.batches ∧
      w' = { w with batches := w.batches.erase (poll, e) }

def World.read (w : World) (poll : Poll) (rows : List (OutboxKey × OutboxEventRow)) : World :=
  { w with
    batches := w.batches ++ rows.map (fun row => (poll, OutboxEventModel.from row.1 row.2)) }

def pollEvents (w w' : World) : Prop :=
  ∃ (poll : Poll) (rows : List (OutboxKey × OutboxEventRow)),
    FindEventsByStatus w.store.db poll.status rows ∧ w' = w.read poll rows

/-- The saga: any number of orders, consumers and pollers, each step by step. -/
def saga : System ℕ Job Call Call.Reply Error Unit World where
  exec := World.exec
  program := Job.program
  start := fun _ job => job.start
  env := pollEvents

abbrev Configuration : Type 1 := Config ℕ Job Call Call.Reply Error Unit World

abbrev Action : Type 1 := Label ℕ Job Call Call.Reply

def anyStep : Configuration → Action → Prop := fun _ _ => True

/-- No order has been placed; the stocks, the wallets and the points are as they may be. -/
structure Initial (w : World) : Prop where
  order : ∀ id, w.store.db.order id = none
  orderItem : w.store.db.orderItem = []
  outboxEvent : ∀ key, w.store.db.outboxEvent key = none
  journal : w.store.journal = []
  published : w.published = []
  batches : w.batches = []

def readEvent (info : CreateOrderInfo) (ty : OutboxEventType) (status : OutboxEventStatus) :
    OutboxEventModel := ⟨aggregateId info.order.id, ty, (Json.order info).stringify.stringify, status⟩

def markCall (o : ℕ) (ty : OutboxEventType) : Call :=
  .statement (.updateOutboxEvent (aggregateId o, ty) .success)

/-- `c` is reached from an empty saga by steps that meet `ok`. -/
def Reachable (ok : Configuration → Action → Prop) (c : Configuration) : Prop :=
  ∃ w, Initial w ∧ Reaches saga ok (quiet w) c

section Journal

theorem Store.exec_journal {q : Query} {s t : Store} {r : Option q.Answer}
    (h : Store.exec q s r t) : s.journal <+: t.journal := by
  cases r with
  | none => exact h ▸ List.prefix_refl _
  | some v =>
    obtain ⟨_, rfl⟩ := h
    exact List.prefix_append _ _

theorem runs_journal {E A : Type} {p : Effect Query (fun q => Option q.Answer) E A} {s t : Store}
    {x : Exit E A} (h : Effect.Runs Store.exec p s x t) : s.journal <+: t.journal := by
  induction h with
  | succeed => exact List.prefix_refl _
  | fail => exact List.prefix_refl _
  | die => exact List.prefix_refl _
  | perform hc _ ih => exact (Store.exec_journal hc).trans ih

theorem World.exec_journal {c : Call} {w w' : World} {r : c.Reply} (h : World.exec c w r w') :
    w.store.journal <+: w'.store.journal := by
  cases World.exec_change h with
  | same => exact List.prefix_refl _
  | statement hq => exact Store.exec_journal hq
  | commit hr => exact (runs_journal hr).trans (List.prefix_append _ _)
  | publish => exact List.prefix_append _ _

theorem start_journal {job : Job} {w w' : World} (h : job.start w w') :
    w'.store = w.store ∧ w'.published = w.published := by
  cases job with
  | order userId orderItems =>
    cases h
    exact ⟨rfl, rfl⟩
  | message m =>
    obtain ⟨_, rfl⟩ := h
    exact ⟨rfl, rfl⟩
  | event poll e =>
    obtain ⟨_, rfl⟩ := h
    exact ⟨rfl, rfl⟩

/-- What holds where the rows and the messages stay, and after every call, holds after every
step. -/
theorem step_shared {R : World → World → Prop}
    (hsame : ∀ w w' : World, w'.store = w.store → w'.published = w.published → R w w')
    (hexec : ∀ (q : Call) (w : World) (r : q.Reply) (w' : World), World.exec q w r w' → R w w')
    {c c' : Configuration} {l : Action} (h : Step saga c l c') : R c.shared c'.shared := by
  cases h with
  | env h =>
    obtain ⟨_, _, _, rfl⟩ := h
    exact hsame _ _ rfl rfl
  | @start i job w' _ h =>
    have hstart : job.start c.shared w' := h
    obtain ⟨hstore, hpublished⟩ := start_journal hstart
    exact hsame _ _ hstore hpublished
  | call _ h => exact hexec _ _ _ _ h
  | stop => exact hsame _ _ rfl rfl

theorem step_journal {c c' : Configuration} {l : Action} (h : Step saga c l c') :
    c.shared.store.journal <+: c'.shared.store.journal := by
  refine step_shared (R := fun w w' => w.store.journal <+: w'.store.journal) (fun w w' hs _ => ?_)
    (fun _ _ _ _ => World.exec_journal) h
  exact hs ▸ List.prefix_refl _

theorem reaches_journal {ok : Configuration → Action → Prop} {c c' : Configuration}
    (h : Reaches saga ok c c') : c.shared.store.journal <+: c'.shared.store.journal := by
  induction h with
  | refl => exact List.prefix_refl _
  | tail _ hn ih =>
    obtain ⟨l, hs, _⟩ := hn
    exact ih.trans (step_journal hs)

end Journal

section Calls

variable {good : (c : Call) → World → c.Reply → Prop} {E A : Type} {w t : World} {x : Exit E A}

abbrev RunsBy (good : (c : Call) → World → c.Reply → Prop) (p : Effect Call Call.Reply E A) (w : World)
    (x : Exit E A) (t : World) : Prop :=
  Effect.Runs (fun c w r t => World.exec c w r t ∧ good c w r) p w x t

theorem statement_then {q : Query} {k : Option q.Answer → Effect Call Call.Reply E A} (v : q.Answer)
    (hgood : good (.statement q) w (some v)) (hv : q.Allows w.store.db v)
    (hk : RunsBy good (k (some v)) { w with store := w.store.after q v } x t) :
    RunsBy good (.perform (.statement q) k) w x t :=
  Effect.runs_perform.mpr ⟨some v, _, ⟨⟨_, ⟨hv, rfl⟩, rfl⟩, hgood⟩, hk⟩

variable {kind : TransactionKind} {B : Type} {body : Statements B}
  {k : Settled B → Effect Call Call.Reply E A} {u : Store}

theorem commit_then {b : B} (hgood : good (.transaction kind B body) w (.resolved b))
    (hb : Effect.Runs Store.exec body w.store (.success b) u)
    (hk : RunsBy good (k (.resolved b)) (w.commit kind u) x t) :
    RunsBy good (.perform (.transaction kind B body) k) w x t :=
  Effect.runs_perform.mpr ⟨.resolved b, _, ⟨⟨u, hb, rfl⟩, hgood⟩, hk⟩

theorem reject_then {e : Error} (hgood : good (.transaction kind B body) w (.rejected (some e)))
    (hb : Effect.Runs Store.exec body w.store (.failure e) u)
    (hk : RunsBy good (k (.rejected (some e))) w x t) :
    RunsBy good (.perform (.transaction kind B body) k) w x t :=
  Effect.runs_perform.mpr ⟨.rejected (some e), _, ⟨⟨⟨u, hb⟩, rfl⟩, hgood⟩, hk⟩

theorem publish_then {ty : OutboxEventType} {key : ℕ} {value : Json}
    {k : Bool → Effect Call Call.Reply E A} (hgood : good (.emit ty key value) w true)
    (hk : RunsBy good (k true) (w.publish ty key value) x t) :
    RunsBy good (.perform (.emit ty key value) k) w x t :=
  Effect.runs_perform.mpr ⟨true, _, ⟨.inr rfl, hgood⟩, hk⟩

end Calls

end EcommerceService.Saga
