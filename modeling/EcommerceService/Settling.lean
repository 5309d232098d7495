import EcommerceService.Facades
import EcommerceService.OutboxPolling
import EcommerceService.Lib.Transactions

namespace EcommerceService.Settling

open EcommerceService.Effects EcommerceService.Errors EcommerceService.Models
open EcommerceService.Database EcommerceService.Repositories EcommerceService.Backend
open EcommerceService.Services EcommerceService.Facades EcommerceService.OutboxPolling
open EcommerceService.Transactions

/-- The statements of a transaction with their answers, the newest first. A rejected
statement has no answer. -/
abbrev Answers : Type := Done Query Query.Answer

def ended {A : Type} : Exit Error A → Statements A
  | .success a => .succeed a
  | .failure e => .fail e
  | .defect => .die

def Ends {A : Type} (effect : Statements A) (answers : Answers) (x : Exit Error A) : Prop :=
  Path effect answers (ended x)

/-- The promise that the callback of `$transaction` returns. -/
inductive Promised (A : Type) where
  | resolved (a : A)
  | rejected (e : Error)
  | pending
deriving DecidableEq, Repr

/-- `Effect.match` calls `res` with a value and `rej` with a failure, and it does not see a
defect. The promise of `Effect.runPromise`, which rejects then, is dropped. -/
def Promised.settle {A : Type} : Exit Error A → Promised A
  | .success a => .resolved a
  | .failure e => .rejected e
  | .defect => .pending

/-- A transaction that could not be started counts as rolled back. -/
inductive Fate where
  | committed
  | rolledBack
deriving DecidableEq, Repr

structure Server where
  starts : Bool
  commits : Bool
deriving DecidableEq, Repr

namespace Server

/-- `$transaction` waits for the promise of its callback. Then it commits or rolls back. -/
def close {A : Type} (server : Server) : Promised A → Option (Fate × Settled A)
  | .resolved a =>
      some (if server.commits then (.committed, .resolved a) else (.rolledBack, .rejected none))
  | .rejected e => some (.rolledBack, .rejected (some e))
  | .pending => none

def exec (server : Server) (answers : Answers) :
    (c : Call) → Option Fate → c.Reply → Option Fate → Prop
  | .transaction _ A body, fate, reply, fate' => fate = none ∧
      if server.starts then ∃ (x : Exit Error A) (f : Fate), Ends body answers x ∧
        server.close (.settle x) = some (f, reply) ∧ fate' = some f
      else reply = .rejected none ∧ fate' = some .rolledBack
  | _, _, _, _ => False

end Server

/-- How a transaction has to end when its effect ends with `x`: committed with the value of
the effect, or rolled back with an application exception, and with that of the effect if it
has one. -/
inductive Outcome {A : Type} (server : Server) (x : Exit Error A) : Exit Error A → Fate → Prop
  | commit {a : A} : server.starts = true → server.commits = true → x = .success a →
      Outcome server x (.success a) .committed
  | rollBack {e : Error} : (server.starts = true → server.commits = true → ∀ a, x ≠ .success a) →
      e.isApplication = true →
      (∀ e', server.starts = true → x = .failure e' → e'.isApplication = true → e = e') →
      Outcome server x (.failure e) .rolledBack

/-- The promise given to `$transaction` settles as the effect has ended, and the effect that
is returned ends accordingly. -/
structure Settles {A : Type} (effect : Statements A) (answers : Answers) (x : Exit Error A) :
    Prop where
  promise : ∃ y, Ends (PrismaService.effectWithTransaction effect) answers y ∧
    ((∃ a, x = .success a ∧ Promised.settle y = .resolved a) ∨
      (∀ a, x ≠ .success a) ∧ ∃ e, Promised.settle y = .rejected e)
  ends : ∀ (server : Server) (kind : TransactionKind), ∃ y fate,
    Effect.Runs (server.exec answers) (PrismaService.transaction kind effect) none y (some fate)
  outcome : ∀ (server : Server) (kind : TransactionKind) (y : Exit Error A) (fate : Option Fate),
    Effect.Runs (server.exec answers) (PrismaService.transaction kind effect) none y fate →
      ∃ f, fate = some f ∧ Outcome server x y f

section Transaction

variable {A : Type} {effect : Statements A} {answers : Answers} {x y : Exit Error A}
  {server : Server} {kind : TransactionKind} {fate : Option Fate}

theorem Ends.unique (h : Ends effect answers x) (h' : Ends effect answers y) : x = y := by
  have heq := Path.unique h h'
  cases x <;> cases y <;> simp_all [ended]

def wrapped : Exit Error A → Exit Error A
  | .success a => .success a
  | .failure e =>
      .failure (if e.isApplication then e else .application .conflict none (some e.message))
  | .defect => .defect

theorem Ends.wraps (h : Ends effect answers x) :
    Ends (PrismaService.effectWithTransaction effect) answers (wrapped x) := by
  have hend : PrismaService.effectWithTransaction (ended x) = ended (wrapped x) := by
    cases x with
    | success a => rfl
    | defect => rfl
    | failure e => cases e <;> rfl
  rw [Ends, ← hend]
  exact Path.catchAll h _

def returned : Settled A → Exit Error A
  | .resolved a => .success a
  | .rejected e => .failure (PrismaService.rejection e)

theorem runs_transaction : Effect.Runs (server.exec answers) (PrismaService.transaction kind effect)
    none y fate ↔ ∃ reply, y = returned reply ∧ server.exec answers
      (.transaction kind A (PrismaService.effectWithTransaction effect)) none reply fate := by
  rw [PrismaService.transaction, Effect.runs_perform]
  constructor
  · rintro ⟨reply, s, hexec, hr⟩
    cases reply with
    | resolved a =>
      obtain ⟨rfl, rfl⟩ := Effect.runs_succeed.mp hr
      exact ⟨_, rfl, hexec⟩
    | rejected e =>
      obtain ⟨rfl, rfl⟩ := Effect.runs_fail.mp hr
      exact ⟨_, rfl, hexec⟩
  · rintro ⟨reply, rfl, hexec⟩
    cases reply with
    | resolved a => exact ⟨_, fate, hexec, .succeed a fate⟩
    | rejected e => exact ⟨_, fate, hexec, .fail _ fate⟩

theorem isApplication_rejection (e : Option Error) : (PrismaService.rejection e).isApplication = true := by
  cases e with
  | none => rfl
  | some e =>
    rw [PrismaService.rejection]
    split
    · assumption
    · rfl

theorem close_exists (hx : x ≠ .defect) (server : Server) :
    ∃ f reply, server.close (.settle (wrapped x)) = some (f, reply) := by
  cases x with
  | success a => exact ⟨_, _, rfl⟩
  | failure e => exact ⟨_, _, rfl⟩
  | defect => exact absurd rfl hx

theorem close_outcome {f : Fate} {reply : Settled A} (hstarts : server.starts = true)
    (h : server.close (.settle (wrapped x)) = some (f, reply)) : Outcome server x (returned reply) f := by
  cases x with
  | success a =>
    cases hcommits : server.commits with
    | true =>
      simp only [wrapped, Promised.settle, Server.close, hcommits, Option.some.injEq] at h
      cases h
      exact .commit hstarts hcommits rfl
    | false =>
      simp only [wrapped, Promised.settle, Server.close, hcommits, Option.some.injEq] at h
      cases h
      exact .rollBack (fun _ hc => by simp [hcommits] at hc) rfl (by rintro e' _ ⟨⟩)
  | failure e =>
    cases h
    refine .rollBack (by rintro _ _ a ⟨⟩) (isApplication_rejection _) ?_
    rintro e' _ ⟨⟩ happ
    simp [PrismaService.rejection, happ]
  | defect => cases h

/-- The transaction settles unless its effect ends with a defect. -/
theorem settles_iff (h : Ends effect answers x) : Settles effect answers x ↔ x ≠ .defect := by
  constructor
  · rintro hs rfl
    obtain ⟨y, hy, ⟨a, ⟨⟩, _⟩ | ⟨_, e, he⟩⟩ := hs.promise
    cases h.wraps.unique hy
    cases he
  · intro hx
    refine ⟨⟨wrapped x, h.wraps, ?_⟩, fun server kind => ?_, fun server kind y fate hr => ?_⟩
    · cases x with
      | success a => exact .inl ⟨a, rfl, rfl⟩
      | failure e => exact .inr ⟨by rintro a ⟨⟩, _, rfl⟩
      | defect => exact absurd rfl hx
    · cases hstarts : server.starts with
      | true =>
        obtain ⟨f, reply, hclose⟩ := close_exists hx server
        exact ⟨_, f, runs_transaction.mpr ⟨reply, rfl, rfl, by
          rw [if_pos hstarts]
          exact ⟨_, f, h.wraps, hclose, rfl⟩⟩⟩
      | false => exact ⟨_, .rolledBack, runs_transaction.mpr ⟨.rejected none, rfl, by simp [Server.exec, hstarts]⟩⟩
    · obtain ⟨reply, rfl, _, hreply⟩ := runs_transaction.mp hr
      cases hstarts : server.starts with
      | true =>
        rw [if_pos hstarts] at hreply
        obtain ⟨z, f, hz, hclose, rfl⟩ := hreply
        cases h.wraps.unique hz
        exact ⟨f, rfl, close_outcome hstarts hclose⟩
      | false =>
        rw [if_neg (by simp [hstarts])] at hreply
        obtain ⟨rfl, rfl⟩ := hreply
        exact ⟨_, rfl, .rollBack (fun hs => by simp [hstarts] at hs) rfl
          (fun _ hs => by simp [hstarts] at hs)⟩

end Transaction

section Repositories

/-- An effect made of the calls of the repositories. Each of them is one `Effect.tryPromise` and
what is made of its value or its failure, but for the insert of an order. -/
inductive Composed (inserts : Prop) : {A : Type} → Statements A → Prop
  | succeed {A : Type} (a : A) : Composed inserts (.succeed a)
  | fail {A : Type} (e : Error) : Composed inserts (.fail e : Statements A)
  | tryPromise (q : Query) : (∀ userId, q ≠ .createOrder userId) → Composed inserts (tryPromise q)
  | create (userId : ℕ) : inserts → Composed inserts (OrderRepository.create userId)
  | flatMap {A B : Type} {effect : Statements A} {f : A → Statements B} : Composed inserts effect →
      (∀ a, Composed inserts (f a)) → Composed inserts (effect.flatMap f)
  | catchAll {A : Type} {effect : Statements A} {f : Error → Statements A} : Composed inserts effect →
      (∀ e, Composed inserts (f e)) → Composed inserts (effect.catchAll f)

def Rejected (answer : Σ q : Query, Option q.Answer) : Prop :=
  ∃ userId, answer = ⟨.createOrder userId, none⟩

/-- The effect throws where the insert of an order is rejected, and nowhere else. -/
def Throws (inserts : Prop) {A : Type} : Statements A → Prop
  | .succeed _ => True
  | .fail _ => True
  | .die => False
  | .perform q k => ∀ r, Rejected ⟨q, r⟩ ∧ inserts ∧ k r = .die ∨
      ¬ Rejected ⟨q, r⟩ ∧ Throws inserts (k r)

variable {A B : Type} {inserts : Prop} {effect : Statements A} {answers : Answers}
  {x : Exit Error A}

theorem Throws.flatMap {f : A → Statements B} (h : Throws inserts effect)
    (hf : ∀ a, Throws inserts (f a)) : Throws inserts (effect.flatMap f) := by
  induction effect with
  | succeed a => exact hf a
  | fail e => trivial
  | die => exact h.elim
  | perform q k ih =>
    intro r
    obtain ⟨hr, hinserts, hk⟩ | ⟨hr, hk⟩ := h r
    · exact .inl ⟨hr, hinserts, congrArg (Effect.flatMap f) hk⟩
    · exact .inr ⟨hr, ih r hk⟩

theorem Throws.catchAll {f : Error → Statements A} (h : Throws inserts effect)
    (hf : ∀ e, Throws inserts (f e)) : Throws inserts (effect.catchAll f) := by
  induction effect with
  | succeed a => trivial
  | fail e => exact hf e
  | die => exact h.elim
  | perform q k ih =>
    intro r
    obtain ⟨hr, hinserts, hk⟩ | ⟨hr, hk⟩ := h r
    · exact .inl ⟨hr, hinserts, congrArg (Effect.catchAll f) hk⟩
    · exact .inr ⟨hr, ih r hk⟩

theorem Composed.throws (h : Composed inserts effect) : Throws inserts effect := by
  induction h with
  | succeed a => trivial
  | fail e => trivial
  | tryPromise q hq =>
    refine fun r => .inr ⟨?_, ?_⟩
    · rintro ⟨userId, heq⟩
      exact hq userId (congrArg Sigma.fst heq)
    · cases r with
      | none => trivial
      | some v => trivial
  | create userId hinserts =>
    intro r
    cases r with
    | none => exact .inl ⟨⟨userId, rfl⟩, hinserts, rfl⟩
    | some v =>
      refine .inr ⟨?_, trivial⟩
      rintro ⟨userId', heq⟩
      cases heq
  | flatMap _ _ ih ihf => exact ih.flatMap ihf
  | catchAll _ _ ih ihf => exact ih.catchAll ihf

theorem Throws.path {rest : Statements A} (h : Throws inserts effect)
    (hp : Path effect answers rest) : ((∀ a ∈ answers, ¬ Rejected a) ∧ Throws inserts rest) ∨
      ((∃ a ∈ answers, Rejected a) ∧ inserts ∧ rest = .die) := by
  induction answers generalizing rest with
  | nil =>
    cases hp
    exact .inl ⟨by simp, h⟩
  | cons answer answers ih =>
    obtain ⟨q, r⟩ := answer
    obtain ⟨k, hk, rfl⟩ := hp
    obtain ⟨hnone, hthrows⟩ | ⟨_, _, hdie⟩ := ih hk
    · obtain ⟨hr, hinserts, hk⟩ | ⟨hr, hk⟩ := hthrows r
      · exact .inr ⟨⟨_, List.mem_cons_self, hr⟩, hinserts, hk⟩
      · exact .inl ⟨List.forall_mem_cons.mpr ⟨hr, hnone⟩, hk⟩
    · cases hdie

theorem Composed.defect_iff (hc : Composed inserts effect) (h : Ends effect answers x) :
    x = .defect ↔ inserts ∧ ∃ a ∈ answers, Rejected a := by
  obtain ⟨hnone, hthrows⟩ | ⟨hrejected, hinserts, hdie⟩ := hc.throws.path h
  · constructor
    · rintro rfl
      exact hthrows.elim
    · rintro ⟨_, a, ha, hr⟩
      exact absurd hr (hnone a ha)
  · refine ⟨fun _ => ⟨hinserts, hrejected⟩, fun _ => ?_⟩
    cases x with
    | success a => cases hdie
    | failure e => cases hdie
    | defect => rfl

/-- A transaction settles exactly when its effect does not end with a defect. If the effect is
made of the calls of the repositories, that is when no insert of an order is rejected. -/
theorem transaction_settles_iff (h : Ends effect answers x) :
    (Settles effect answers x ↔ x ≠ .defect) ∧
      (Composed True effect → (Settles effect answers x ↔ ∀ a ∈ answers, ¬ Rejected a)) := by
  refine ⟨settles_iff h, fun hc => ?_⟩
  rw [settles_iff h, Ne, hc.defect_iff h]
  push Not
  simp

/-- The effects that are passed to `PrismaService.transaction`. -/
inductive Passed : TransactionKind → {A : Type} → Statements A → Prop
  | order (userId : ℕ) (orderItems : List CreateOrderItemCommand) : Passed .order
      ((OrderService.createOrder userId orderItems).flatMap OrderFacade.createOutboxEvent)
  | deductStock (info : CreateOrderInfo) :
      Passed (.deductStock info.order.id) (ProductFacade.deducting info)
  | payment (info : CreateOrderInfo) : Passed (.payment info.order.id) (UserFacade.paying info)
  | orderSuccess (info : CreateOrderInfo) : Passed (.orderSuccess info.order.id)
      ((OrderService.updateOrderStatus info.order.id .paid).tap
        (fun _ => OrderFacade.orderSuccessEvent info))
  | restoreStock (info : CreateOrderInfo) : Passed (.restoreStock info.order.id) (restoring info)
  | chargePoint (userId : ℕ) (amount : ℚ) :
      Passed (.chargePoint userId) (PointService.charging userId amount)

theorem Composed.map {f : A → B} (h : Composed inserts effect) : Composed inserts (effect.map f) :=
  h.flatMap (fun a => .succeed (f a))

theorem Composed.tap {f : A → Statements B} (h : Composed inserts effect)
    (hf : ∀ a, Composed inserts (f a)) : Composed inserts (effect.tap f) :=
  h.flatMap (fun a => (hf a).map)

theorem Composed.all {effects : List (Statements A)} (h : ∀ effect ∈ effects, Composed inserts effect) :
    Composed inserts (Effect.all effects) := by
  induction effects with
  | nil => exact .succeed []
  | cons effect effects ih =>
    obtain ⟨heffect, heffects⟩ := List.forall_mem_cons.mp h
    exact heffect.flatMap (fun _ => (ih heffects).map)

theorem Composed.orFail {f : Error → Error} (h : Composed inserts effect) :
    Composed inserts (effect.catchAll (fun e => .fail (f e))) := h.catchAll (fun e => .fail (f e))

theorem Composed.look {q : Query} {f : q.Answer → A} {e : Error} (hq : ∀ userId, q ≠ .createOrder userId) :
    Composed inserts (((Repositories.tryPromise q).map f).catchAll (fun _ => .fail e)) :=
  Composed.orFail (Composed.map (.tryPromise q hq))

theorem Composed.all_map {α : Type} {f : α → Statements A} (hf : ∀ a, Composed inserts (f a))
    (as : List α) : Composed inserts (Effect.all (as.map f)) := by
  refine Composed.all (fun effect he => ?_)
  obtain ⟨a, _, rfl⟩ := List.mem_map.mp he
  exact hf a

theorem composed_updateBulk (updates : List ProductStockModel) :
    Composed inserts (ProductStockRepository.updateBulk updates) := by
  refine Composed.orFail (Composed.map (Composed.all_map (fun update => ?_) updates))
  exact .tryPromise _ (by rintro userId ⟨⟩)

theorem composed_findByIdsWithXLock (productIds : List ℕ) :
    Composed inserts (ProductStockRepository.findByIdsWithXLock productIds) :=
  Composed.orFail (.tryPromise _ (by rintro userId ⟨⟩))

theorem composed_changeStocks {f : ProductStockModel → Statements ProductStockModel}
    (hf : ∀ stock, Composed inserts (f stock)) (productIds : List ℕ) :
    Composed inserts (((ProductStockRepository.findByIdsWithXLock productIds).flatMap
      (fun stocks => Effect.all (stocks.map f))).flatMap ProductStockRepository.updateBulk) :=
  Composed.flatMap (Composed.flatMap (composed_findByIdsWithXLock _) (Composed.all_map hf))
    composed_updateBulk

theorem composed_createOutboxEvent (key : OutboxKey) (payload : Json) (status : OutboxEventStatus) :
    Composed inserts (OutboxEventRepository.create key payload status) :=
  Composed.map (.tryPromise _ (by rintro userId ⟨⟩))

theorem composed_getByUserId (userId : ℕ) :
    Composed inserts (WalletRepository.getByUserId userId) := Composed.look (by rintro userId ⟨⟩)

theorem composed_createPoint (point : PointModel) :
    Composed inserts (PointRepository.create point) := .tryPromise _ (by rintro userId ⟨⟩)

theorem composed_createOrder (userId : ℕ) (orderItems : List CreateOrderItemCommand) :
    Composed True (OrderService.createOrder userId orderItems) := by
  refine Composed.flatMap (.create userId trivial) (fun order => ?_)
  refine Composed.map (Composed.flatMap (.tryPromise _ (by rintro userId ⟨⟩)) (fun _ => ?_))
  split
  · exact .fail _
  · exact .tryPromise _ (by rintro userId ⟨⟩)

theorem composed_deductStock (command : DeductStockCommand) :
    Composed inserts (ProductService.deductStock command) := by
  refine composed_changeStocks (fun stock => ?_) _
  rw [ProductService.deduct]
  split
  · rw [ProductStockModel.deduct]
    split
    · exact .succeed _
    · exact .fail _
  · exact .fail _

theorem composed_completePayment (userId : ℕ) (amount : ℚ) :
    Composed inserts (WalletService.completePayment userId amount) := by
  refine Composed.catchAll (Composed.flatMap (Composed.tap (Composed.tap (composed_getByUserId userId)
    (fun wallet => ?_)) (fun _ => composed_createPoint _))
    (fun _ => Composed.look (by rintro userId ⟨⟩))) (fun e => ?_)
  · rw [WalletModel.payable]
    split
    · exact .succeed _
    · exact .fail _
  · split
    · exact .fail _
    · exact .fail _

theorem composed_charging (userId : ℕ) (amount : ℚ) :
    Composed inserts (PointService.charging userId amount) := by
  refine Composed.flatMap (Composed.flatMap (composed_getByUserId userId).map (fun wallet => ?_))
    (fun _ => composed_createPoint _)
  refine Composed.orFail (Composed.map (Composed.flatMap (.tryPromise _ (by rintro userId ⟨⟩))
    (fun answer => ?_)))
  rw [WalletRepository.validateVersion]
  split
  · exact .succeed _
  · exact .fail _

theorem composed_restoring (info : CreateOrderInfo) : Composed inserts (restoring info) := by
  refine composed_changeStocks (fun stock => ?_) _
  rw [addStock]
  split
  · exact .succeed _
  · exact .fail _

theorem Passed.composed {kind : TransactionKind} (h : Passed kind effect) :
    Composed (kind = .order) effect := by
  cases h with
  | order userId orderItems =>
    have hinserts : (TransactionKind.order = .order) = True := eq_self _
    rw [hinserts]
    exact (composed_createOrder userId orderItems).flatMap
      (fun info => (composed_createOutboxEvent _ _ _).map)
  | deductStock info =>
    exact (composed_deductStock _).tap (fun _ => composed_createOutboxEvent _ _ _)
  | payment info =>
    exact (composed_completePayment _ _).tap (fun _ => composed_createOutboxEvent _ _ _)
  | orderSuccess info =>
    exact Composed.tap (Composed.flatMap (Composed.look (by rintro userId ⟨⟩))
      (fun order => Composed.map (.tryPromise _ (by rintro userId ⟨⟩))))
      (fun _ => composed_createOutboxEvent _ _ _)
  | restoreStock info => exact composed_restoring info
  | chargePoint userId amount => exact composed_charging userId amount

/-- Every transaction settles but that of a new order, which settles when the insert of the
order is not rejected. -/
theorem Passed.settles {kind : TransactionKind} (hp : Passed kind effect)
    (h : Ends effect answers x) (hk : kind = .order → ∀ a ∈ answers, ¬ Rejected a) :
    Settles effect answers x := by
  refine (settles_iff h).mpr (fun hx => ?_)
  obtain ⟨horder, a, ha, hr⟩ := (hp.composed.defect_iff h).mp hx
  exact hk horder a ha hr

end Repositories

section Scenes

def ordering : Statements CreateOrderInfo :=
  (OrderService.createOrder 7 [⟨1, 3, 2⟩]).flatMap OrderFacade.createOutboxEvent

/-- The order is inserted, and the insert of its item is rejected. -/
theorem transaction_settles_unless_thrown :
    Settles ordering [⟨.createManyOrderItems [⟨1, 1, 3, 2⟩], none⟩,
      ⟨.createOrder 7, some (1, ⟨7, .pendingPayment⟩)⟩] (.failure .unknownException) := by
  have hends : Ends ordering [⟨.createManyOrderItems [⟨1, 1, 3, 2⟩], none⟩,
      ⟨.createOrder 7, some (1, ⟨7, .pendingPayment⟩)⟩] (.failure .unknownException) :=
    ⟨_, ⟨_, rfl, rfl⟩, rfl⟩
  have hcomposed : Composed True ordering := (composed_createOrder _ _).flatMap
    (fun info => (composed_createOutboxEvent _ _ _).map)
  refine ((transaction_settles_iff hends).2 hcomposed).mpr (fun answer hm => ?_)
  rintro ⟨userId, rfl⟩
  simp at hm

/-- The insert of the order is rejected, and the transaction waits for ever. -/
theorem transaction_hangs : ¬ ∀ (effect : Statements CreateOrderInfo) (answers : Answers)
    (x : Exit Error CreateOrderInfo), Ends effect answers x → Settles effect answers x := by
  intro h
  have hends : Ends ordering [⟨.createOrder 7, none⟩] .defect := ⟨_, rfl, rfl⟩
  exact (settles_iff hends).mp (h _ _ _ hends) rfl

end Scenes

end EcommerceService.Settling
