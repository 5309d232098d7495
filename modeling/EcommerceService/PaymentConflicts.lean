import Mathlib.Algebra.BigOperators.Ring.Finset
import EcommerceService.Lib.Doubles
import EcommerceService.WalletLedger

namespace EcommerceService.PaymentConflicts

open EcommerceService.Effects EcommerceService.Errors EcommerceService.Models
open EcommerceService.Database EcommerceService.Repositories EcommerceService.Backend
open EcommerceService.Services EcommerceService.Facades EcommerceService.TransactionEffects
open EcommerceService.RowLocks EcommerceService.WalletLedger
open EcommerceService.Transactions (Replays grab release)
open EcommerceService.Doubles

section Code

/-- `amount` as `processOrderPayment` adds it up, in doubles. -/
def amount (orderInfo : CreateOrderInfo) : ℚ :=
  (orderInfo.orderItems.map (fun item => double (double item.price * item.quantity))).foldl
    (fun acc cur => double (acc + cur)) 0

/-- `wallet.payable(amount)`: the balance is turned into a double. -/
def payable (amount : ℚ) (wallet : WalletModel) : Statements Bool :=
  if double wallet.totalPoint ≥ amount then .succeed true
  else .fail (.appConflict ErrorCodes.walletInsufficientPoint)

/-- `completePayment` from the wallet it has read on. What is written is rounded to two decimals
by the columns, and so it is taken as the exact decimal. -/
def paid (orderInfo : CreateOrderInfo) (read : Statements WalletModel) : Statements WalletModel :=
  (((read.tap (payable (amount orderInfo))).tap
    (WalletService.createPoint orderInfo.totalAmount)).flatMap
    (WalletService.updateWallet orderInfo.totalAmount)).catchIf
    (fun e => !e.isApplication) (fun _ => .fail (.appConflict ErrorCodes.paymentFailed))

def paying (orderInfo : CreateOrderInfo) : Statements WalletModel :=
  (paid orderInfo (WalletRepository.getByUserId orderInfo.order.userId)).tap
    (fun _ => UserFacade.emitPaymentEvent orderInfo .init)

def processOrderPayment (orderInfo : CreateOrderInfo) : Service Unit :=
  (PrismaService.transaction (.payment orderInfo.order.id) (paying orderInfo)).asVoid.catchAll
    (fun _ => (autocommit (UserFacade.emitPaymentEvent orderInfo .fail)).asVoid)

def bodyOf : WalletJob → Statements ℕ
  | .processOrderPayment orderInfo =>
      (PrismaService.effectWithTransaction (paying orderInfo)).map (·.id)
  | job => job.body

/-- The sum in doubles is not above the double of the sum. -/
def Exact (orderInfo : CreateOrderInfo) : Prop := amount orderInfo ≤ double orderInfo.totalAmount

end Code

section Whole

end Whole

/-- The open transactions, that of the payment under the number 0, and what the payment has
still to do. -/
structure Counter where
  txs : WalletState
  rest : Service Unit

def job (info : CreateOrderInfo) : WalletJob := .processOrderPayment info

def TopUp (j : WalletJob) : Prop := ∃ userId amount, j = .chargePoint userId amount ∧ 1 ≤ amount

/-- The payment moves by one call, or a top-up does. A statement of the payment only fails when the
tables refuse it, and its transaction ends when its body has; top-ups may also fail. -/
inductive Step (info : CreateOrderInfo) : Counter → Counter → Prop
  | topUp {st st' : WalletState} {rest : Service Unit} : Transactions.Step engine bodyOf st st' →
      st'.txs 0 = st.txs 0 → (∀ i t, i ≠ 0 → st'.txs i = some t → TopUp t.job) →
      Step info ⟨st, rest⟩ ⟨st', rest⟩
  | begin {st : WalletState} {kind : TransactionKind} {A : Type} {body : Statements A}
      {k : Settled A → Service Unit} : st.txs 0 = none →
      Step info ⟨st, .perform (.transaction kind A body) k⟩
        ⟨{ st with txs := Function.update st.txs 0 (some ⟨job info, bodyOf (job info), []⟩) },
          .perform (.transaction kind A body) k⟩
  | call {st : WalletState} {rest : Service Unit} {j : WalletJob} {q : Query}
      {k : Option q.Answer → Statements ℕ} {h : Transactions.Done Query Query.Answer} {s : Store}
      {v : q.Answer} : st.txs 0 = some ⟨j, .perform q k, h⟩ →
      Replays engine engine.guarded h st.committed s →
      (∀ key ∈ locks q v, st.held key = none ∨ st.held key = some 0) → q.Allows s.db v →
      Step info ⟨st, rest⟩ ⟨{ st with
        held := grab st.held 0 (locks q v)
        txs := Function.update st.txs 0 (some ⟨j, k (some v), ⟨q, some v⟩ :: h⟩) }, rest⟩
  | refused {st : WalletState} {rest : Service Unit} {j : WalletJob} {q : Query}
      {k : Option q.Answer → Statements ℕ} {h : Transactions.Done Query Query.Answer} {s : Store} :
      st.txs 0 = some ⟨j, .perform q k, h⟩ → Replays engine engine.guarded h st.committed s →
      (∀ v, ¬ q.Allows s.db v) →
      Step info ⟨st, rest⟩ ⟨{ st with
        txs := Function.update st.txs 0 (some ⟨j, k none, ⟨q, none⟩ :: h⟩) }, rest⟩
  | resolved {st : WalletState} {kind : TransactionKind} {A : Type} {body : Statements A}
      {k : Settled A → Service Unit} {j : WalletJob} {id : ℕ}
      {h : Transactions.Done Query Query.Answer} {s : Store} (a : A) :
      st.txs 0 = some ⟨j, .succeed id, h⟩ → Replays engine engine.guarded h st.committed s →
      Step info ⟨st, .perform (.transaction kind A body) k⟩
        ⟨⟨s, release st.held 0, Function.update st.txs 0 none, st.log ++ [(j, id)]⟩, k (.resolved a)⟩
  | rejected {st : WalletState} {kind : TransactionKind} {A : Type} {body : Statements A}
      {k : Settled A → Service Unit} {j : WalletJob} {e : Error}
      {h : Transactions.Done Query Query.Answer} : st.txs 0 = some ⟨j, .fail e, h⟩ →
      Step info ⟨st, .perform (.transaction kind A body) k⟩
        ⟨{ st with held := release st.held 0, txs := Function.update st.txs 0 none },
          k (.rejected (some e))⟩
  | statement {st : WalletState} {q : Query} {k : Option q.Answer → Service Unit} {v : q.Answer} :
      (∀ key ∈ locks q v, st.held key = none) → q.Allows st.committed.db v →
      Step info ⟨st, .perform (.statement q) k⟩
        ⟨{ st with committed := st.committed.after q v }, k (some v)⟩
  | statementRefused {st : WalletState} {q : Query} {k : Option q.Answer → Service Unit} :
      (∀ v, ¬ q.Allows st.committed.db v) →
      Step info ⟨st, .perform (.statement q) k⟩ ⟨st, k none⟩

/-- While the payment has read the wallet and is not committed, the committed wallet stays as it is. -/
def Undisturbed (id : ℕ) (b b' : Counter) : Prop :=
  (∃ t, b.txs.txs 0 = some t ∧ t.done ≠ []) → b'.txs.txs 0 ≠ none →
    b'.txs.committed.db.wallet id = b.txs.committed.db.wallet id

abbrev Reaches (info : CreateOrderInfo) (id : ℕ) : Counter → Counter → Prop :=
  Relation.ReflTransGen (fun b b' => Step info b b' ∧ Undisturbed id b b')

def opening (info : CreateOrderInfo) (s : Store) : Counter :=
  ⟨Transactions.idle s, processOrderPayment info⟩

def eventKey (info : CreateOrderInfo) : OutboxKey := (aggregateId info.order.id, .orderPayment)

def paidRow (info : CreateOrderInfo) : OutboxEventRow := ⟨(Json.order info).stringify, .init⟩

section Programs

variable (info : CreateOrderInfo) (wallet : WalletModel)

def afterRead : Statements ℕ :=
  (PrismaService.effectWithTransaction ((paid info (.succeed wallet)).tap
    (fun _ => UserFacade.emitPaymentEvent info .init))).map (·.id)

def afterPoint : Statements ℕ :=
  (PrismaService.effectWithTransaction (((WalletService.updateWallet info.totalAmount wallet).catchIf
    (fun e => !e.isApplication) (fun _ => .fail (.appConflict ErrorCodes.paymentFailed))).tap
    (fun _ => UserFacade.emitPaymentEvent info .init))).map (·.id)

def afterUpdate : Statements ℕ :=
  (PrismaService.effectWithTransaction ((UserFacade.emitPaymentEvent info .init).map
    (fun _ => wallet))).map (·.id)

theorem body_reads_wallet : ∃ k,
    bodyOf (job info) = .perform (.findUniqueOrThrowWallet info.order.userId) k ∧
    ∀ id row, k (some (id, row)) = afterRead info (WalletModel.from id row) := ⟨_, rfl, fun _ _ => rfl⟩

theorem afterRead_creates {wallet : WalletModel} (h : amount info ≤ double wallet.totalPoint) : ∃ k,
    afterRead info wallet = .perform (.createPoint ⟨wallet.id, -info.totalAmount, .use⟩) k ∧
    ∀ v, k (some v) = afterPoint info wallet := by
  have hpayable : payable (amount info) wallet = .succeed true := if_pos h
  have hpaid : paid info (.succeed wallet) =
      ((((payable (amount info) wallet).map (fun _ => wallet)).tap
        (WalletService.createPoint info.totalAmount)).flatMap
        (WalletService.updateWallet info.totalAmount)).catchIf (fun e => !e.isApplication)
        (fun _ => .fail (.appConflict ErrorCodes.paymentFailed)) := rfl
  rw [afterRead, hpaid, hpayable]
  exact ⟨_, rfl, fun _ => rfl⟩

theorem afterRead_refuses {wallet : WalletModel} (h : ¬ amount info ≤ double wallet.totalPoint) :
    ∃ e, afterRead info wallet = .fail e := by
  have hpayable : payable (amount info) wallet =
      .fail (.appConflict ErrorCodes.walletInsufficientPoint) := if_neg h
  have hpaid : paid info (.succeed wallet) =
      ((((payable (amount info) wallet).map (fun _ => wallet)).tap
        (WalletService.createPoint info.totalAmount)).flatMap
        (WalletService.updateWallet info.totalAmount)).catchIf (fun e => !e.isApplication)
        (fun _ => .fail (.appConflict ErrorCodes.paymentFailed)) := rfl
  rw [afterRead, hpaid, hpayable]
  exact ⟨_, rfl⟩

theorem afterPoint_updates : ∃ k, afterPoint info wallet =
      .perform (.updateWallet wallet.id (some wallet.version) (wallet.totalPoint - info.totalAmount)) k ∧
    (∀ v, k (some v) = afterUpdate info (WalletModel.from v.1 v.2)) ∧ ∃ e, k none = .fail e :=
  ⟨_, rfl, fun _ => rfl, _, rfl⟩

theorem afterUpdate_emits : ∃ k, afterUpdate info wallet =
      .perform (.createOutboxEvent (eventKey info) (Json.order info).stringify .init) k ∧
    ∀ v, k (some v) = .succeed wallet.id := ⟨_, rfl, fun _ => rfl⟩

theorem processOrderPayment_opens : ∃ kind body k,
    processOrderPayment info = .perform (.transaction kind WalletModel body) k ∧
    (∀ a, k (.resolved a) = .succeed ()) ∧ ∀ e, ∃ k', k (.rejected e) =
      .perform (.statement (.createOutboxEvent (eventKey info) (Json.order info).stringify .fail)) k' :=
  ⟨_, _, _, rfl, fun _ => rfl, fun _ => ⟨_, rfl⟩⟩

end Programs

section Transactions

variable {info : CreateOrderInfo} {s t : Store} {id : ℕ} {row : WalletRow} {wallet : WalletModel}

/-- A payment that succeeds has held its amount against the balance and has kept the version, and
where the exact amount is covered it is a run of the exact payment. -/
theorem runs_paid (h : Effect.Runs Store.exec (paid info (.succeed (WalletModel.from id row))) s
      (.success wallet) t) :
    (wallet.id = id ∧ ∃ old, s.db.wallet id = some old ∧ old.version = row.version) ∧
      (info.totalAmount ≤ row.totalPoint → Effect.Runs Store.exec
        (WalletLedger.paid info.totalAmount (.succeed (WalletModel.from id row))) s (.success wallet) t) := by
  have hpaid := (Effect.runs_catchAll_success (fun e => by split <;> exact ⟨_, rfl⟩)).mp h
  obtain ⟨wallet', u, hpoint, hupdate⟩ := Effect.runs_flatMap_success.mp hpaid
  obtain ⟨v, point, hpayable, hcreate⟩ := Effect.runs_tap_success.mp hpoint
  obtain ⟨w, b, hread, henough⟩ := Effect.runs_tap_success.mp hpayable
  obtain ⟨hwallet, rfl⟩ := Effect.runs_succeed.mp hread
  cases hwallet
  rw [payable] at henough
  split at henough
  · obtain ⟨_, rfl⟩ := Effect.runs_succeed.mp henough
    refine ⟨?_, fun hle => ?_⟩
    · obtain ⟨rfl, rfl⟩ := runs_tryPromise.mp hcreate
      obtain ⟨hid, old, hold, hversion, _⟩ := runs_update hupdate
      exact ⟨hid, old, hold, hversion⟩
    · have hpayable : (WalletModel.from id row).payable info.totalAmount = (.succeed true : Statements Bool) :=
        if_pos hle
      refine (Effect.runs_catchAll_success (fun e => by split <;> exact ⟨_, rfl⟩)).mpr ?_
      refine Effect.runs_flatMap_success.mpr ⟨_, u, Effect.runs_tap_success.mpr ⟨v, point, ?_, hcreate⟩,
        hupdate⟩
      exact Effect.runs_tap_success.mpr ⟨v, true, .succeed _ v, hpayable ▸ .succeed true v⟩
  · simp at henough

theorem confined_paid (info : CreateOrderInfo) (wallet : WalletModel) :
    Effect.Confined Effect.anyAnswer Guarded (fun _ => True) (paid info (.succeed wallet)) := by
  have hpayable : Effect.Confined Effect.anyAnswer Guarded (fun _ => True)
      (payable (amount info) wallet) := by
    rw [payable]
    split
    · exact Effect.confined_succeed
    · exact Effect.confined_fail.mpr trivial
  have hcreate : ∀ wallet : WalletModel, Effect.Confined Effect.anyAnswer Guarded (fun _ => True)
      (WalletService.createPoint info.totalAmount wallet) := fun _ => confined_tryPromise trivial trivial
  refine (((Effect.Confined.tap Effect.confined_succeed (fun _ => hpayable)).tap
    hcreate).flatMap (fun _ => walletUpdate_confined trivial)).catchAll (fun e _ => ?_)
  split
  · exact Effect.confined_fail.mpr trivial
  · exact Effect.confined_fail.mpr trivial

theorem bodyOf_reads (j : WalletJob) : ∃ userId k,
    bodyOf j = .perform (.findUniqueOrThrowWallet userId) k ∧
    (∀ r, Effect.Confined Effect.anyAnswer Guarded (fun _ => True) (k r)) ∧
    ∀ id row s x t, Effect.Runs Store.exec (k (some (id, row))) s (.success x) t →
      ∃ old, s.db.wallet id = some old ∧ old.version = row.version := by
  have hexact : ∃ userId k, j.body = .perform (.findUniqueOrThrowWallet userId) k ∧
      (∀ r, Effect.Confined Effect.anyAnswer Guarded (fun _ => True) (k r)) ∧
      ∀ id row s x t, Effect.Runs Store.exec (k (some (id, row))) s (.success x) t →
        ∃ old, s.db.wallet id = some old ∧ old.version = row.version := by
    obtain ⟨k, hbody, hguarded, _, hbooked⟩ := body_reads j
    refine ⟨j.userId, k, hbody, hguarded, fun id row s x t hr => ?_⟩
    obtain ⟨_, ⟨old, hold, hversion, _⟩, _, _⟩ := hbooked id row s x t hr
    exact ⟨old, hold, hversion⟩
  cases j with
  | chargePoint userId amount => exact hexact
  | completePayment userId amount => exact hexact
  | processOrderPayment info =>
    refine ⟨_, _, rfl, fun r => ?_, fun id row s x t h => ?_⟩
    · cases r with
      | none => exact Effect.confined_fail.mpr trivial
      | some answer =>
        exact confined_transaction ((confined_paid _ _).tap
          (fun _ => (confined_tryPromise trivial trivial).map))
    · obtain ⟨wallet, hwallet, _⟩ := runs_transaction h
      obtain ⟨u, _, hpaid, _⟩ := Effect.runs_tap_success.mp hwallet
      exact (runs_paid hpaid).1.2

theorem payment_fresh {st : WalletState}
    (h : Transactions.Reaches engine bodyOf (Transactions.idle s) st) : Transactions.Fresh engine st :=
  fresh_of_reads bodyOf_reads h

theorem payment_exact {x : ℕ} (hr : Effect.Runs Store.exec (bodyOf (job info)) s (.success x) t)
    (hcovered : ∀ id row, s.db.wallet id = some row → row.userId = info.order.userId →
      info.totalAmount ≤ row.totalPoint) :
    Effect.Runs Store.exec (job info).body s (.success x) t := by
  obtain ⟨wallet, hwallet, rfl⟩ := runs_transaction hr
  obtain ⟨u, event, hpaid, hemit⟩ := Effect.runs_tap_success.mp hwallet
  obtain ⟨answer, v, hread, hrest⟩ := Effect.runs_perform.mp hpaid
  refine Effect.runs_map_success.mpr ⟨wallet, runs_effectWithTransaction.mpr
    (Effect.runs_tap_success.mpr ⟨u, event, ?_, hemit⟩), rfl⟩
  cases answer with
  | none => cases (Effect.runs_fail.mp hrest).1
  | some answer =>
    obtain ⟨id, row⟩ := answer
    obtain ⟨⟨hrow, huser⟩, hv⟩ := hread
    obtain rfl := hv.trans (Store.after_read rfl rfl)
    exact Effect.runs_perform.mpr ⟨some (id, row), _, ⟨⟨hrow, huser⟩, hv⟩,
      (runs_paid hrest).2 (hcovered id row hrow huser)⟩

end Transactions

def topUpOf (id : ℕ) : WalletJob × ℕ → ℚ
  | (.chargePoint _ amount, id') => if id' = id then amount else 0
  | _ => 0

def toppedUp (id : ℕ) (log : List (WalletJob × ℕ)) : ℚ := (log.map (topUpOf id)).sum

/-- The payer has this wallet and no other, with enough points, and the payment of the order has
not been recorded. -/
structure Payable (info : CreateOrderInfo) (id : ℕ) (row₀ : WalletRow) (s : Store) : Prop where
  wallet : s.db.wallet id = some row₀
  user : row₀.userId = info.order.userId
  unique : ∀ id' row, s.db.wallet id' = some row → row.userId = info.order.userId → id' = id
  enough : info.totalAmount ≤ row₀.totalPoint
  new : s.db.outboxEvent (eventKey info) = none

/-- The balance covers the order, as the decimals it is kept in and as doubles. -/
structure Covers (info : CreateOrderInfo) (balance : ℚ) : Prop where
  enough : info.totalAmount ≤ balance
  payable : amount info ≤ double balance

theorem Covers.mono {info : CreateOrderInfo} {balance balance' : ℚ} (h : Covers info balance)
    (hle : balance ≤ balance') : Covers info balance' :=
  ⟨h.enough.trans hle, h.payable.trans (double_mono hle)⟩

theorem Payable.covers {info : CreateOrderInfo} {id : ℕ} {row₀ : WalletRow} {s : Store}
    (h : Payable info id row₀ s) (hexact : Exact info) : Covers info row₀.totalPoint :=
  ⟨h.enough, hexact.trans (double_mono h.enough)⟩

structure Funds (info : CreateOrderInfo) (id : ℕ) (row₀ : WalletRow) (taken : ℚ)
    (log : List (WalletJob × ℕ)) (t : Store) : Prop where
  wallet : ∃ row, t.db.wallet id = some row ∧ row.userId = info.order.userId ∧
    row.totalPoint = row₀.totalPoint + toppedUp id log - taken
  unique : ∀ id' row, t.db.wallet id' = some row → row.userId = info.order.userId → id' = id
  topUps : 0 ≤ toppedUp id log

section Funds

variable {info : CreateOrderInfo} {id : ℕ} {row₀ : WalletRow} {taken : ℚ}
  {log : List (WalletJob × ℕ)} {s t : Store}

theorem toppedUp_append (e : WalletJob × ℕ) :
    toppedUp id (log ++ [e]) = toppedUp id log + topUpOf id e := by
  simp [toppedUp]

theorem Payable.funds (h : Payable info id row₀ s) : Funds info id row₀ 0 [] s :=
  ⟨⟨row₀, h.wallet, h.user, by simp [toppedUp]⟩, h.unique, le_rfl⟩

theorem Funds.covers {row : WalletRow} (h : Funds info id row₀ 0 log s)
    (hcovers : Covers info row₀.totalPoint) (hrow : s.db.wallet id = some row) :
    Covers info row.totalPoint := by
  obtain ⟨mine, hmine, _, htotal⟩ := h.wallet
  obtain rfl := Option.some.inj (hrow.symm.trans hmine)
  refine hcovers.mono ?_
  have htop := h.topUps
  linarith

theorem Funds.booked {j : WalletJob} {x : ℕ} {row : WalletRow} {taken' : ℚ}
    (h : Funds info id row₀ taken log s) (hx : s.db.wallet x = some row) (hb : Booked j x row s t)
    (hamount : (if x = id then j.amount else 0) = topUpOf id (j, x) + taken - taken')
    (htop : 0 ≤ topUpOf id (j, x)) : Funds info id row₀ taken' (log ++ [(j, x)]) t := by
  obtain ⟨old, hold, _, hwallet⟩ := hb.wallet
  obtain rfl := Option.some.inj (hold.symm.trans hx)
  obtain ⟨mine, hmine, huser, htotal⟩ := h.wallet
  refine ⟨?_, fun id' row' hrow' huser' => ?_, ?_⟩
  · rw [hwallet, toppedUp_append]
    by_cases hid : x = id
    · subst hid
      obtain rfl := Option.some.inj (hmine.symm.trans hx)
      rw [if_pos rfl] at hamount
      refine ⟨_, Function.update_self _ _ _, huser, ?_⟩
      simp only [htotal]
      linarith
    · rw [if_neg hid] at hamount
      refine ⟨mine, (Function.update_of_ne (Ne.symm hid) _ _).trans hmine, huser, ?_⟩
      rw [htotal]
      linarith
  · rw [hwallet] at hrow'
    by_cases hid : id' = x
    · subst hid
      rw [Function.update_self] at hrow'
      obtain rfl := Option.some.inj hrow'
      exact h.unique id' old hx huser'
    · exact h.unique id' row' ((Function.update_of_ne hid _ _).symm.trans hrow') huser'
  · rw [toppedUp_append]
    exact add_nonneg h.topUps htop

theorem Funds.topUp {j : WalletJob} {x : ℕ} (h : Funds info id row₀ taken log s) (hj : TopUp j)
    (hr : Effect.Runs Store.exec j.body s (.success x) t) :
    Funds info id row₀ taken (log ++ [(j, x)]) t := by
  obtain ⟨userId, amount, rfl, hamount⟩ := hj
  obtain ⟨row, hrow, _, hb⟩ := job_booked hr
  refine h.booked hrow hb ?_ ?_
  · exact (add_sub_cancel_right _ _).symm
  · rw [topUpOf]
    split
    · exact zero_le_one.trans hamount
    · exact le_rfl

theorem Funds.pay (h : Funds info id row₀ 0 log s)
    (hr : Effect.Runs Store.exec (job info).body s (.success id) t) :
    Funds info id row₀ info.totalAmount (log ++ [(job info, id)]) t := by
  obtain ⟨row, hrow, _, hb⟩ := job_booked hr
  refine h.booked hrow hb ?_ le_rfl
  rw [if_pos rfl]
  simp [job, topUpOf, WalletJob.amount]

theorem charging_confined (userId : ℕ) (amount : ℚ) : Effect.Confined Effect.anyAnswer onWallet
    (fun _ => True) (PointService.charging userId amount) := by
  have hread : Effect.Confined Effect.anyAnswer onWallet (fun _ => True)
      (WalletRepository.getByUserId userId) :=
    (confined_tryPromise (Q := fun _ => True) trivial trivial).map.catchAll
      (fun _ _ => Effect.confined_fail.mpr trivial)
  refine ((hread.map.flatMap (fun wallet => ?_)).flatMap (fun _ => confined_tryPromise trivial trivial))
  refine ((confined_tryPromise (Q := fun _ => True) trivial trivial).flatMap (fun answer => ?_)).map.catchAll
    (fun _ _ => Effect.confined_fail.mpr trivial)
  rw [WalletRepository.validateVersion]
  split
  · exact Effect.confined_succeed
  · exact Effect.confined_fail.mpr trivial

theorem paid_event {x : ℕ} (hr : Effect.Runs Store.exec (job info).body s (.success x) t) :
    t.db.outboxEvent (eventKey info) = some (paidRow info) := by
  obtain ⟨_, hpaying, _⟩ := runs_transaction hr
  obtain ⟨u, row, _, ⟨_, rfl⟩, rfl⟩ := runs_paying hpaying
  exact Function.update_self _ _ _

theorem topUp_sameSaga {j : WalletJob} {x : ℕ} (hj : TopUp j)
    (hr : Effect.Runs Store.exec j.body s (.success x) t) : SameSaga s t := by
  obtain ⟨userId, amount, rfl, _⟩ := hj
  obtain ⟨_, hcharging, _⟩ := runs_transaction hr
  exact Confined.sameSaga ((charging_confined userId amount).mono (fun _ => .inr) (fun _ h => h))
    hcharging

end Funds

abbrev PaymentTx : Type := Transactions.Tx WalletJob Query Query.Answer Error ℕ

/-- How far the transaction of the payment has come, on the committed tables `s`. -/
inductive Stage (info : CreateOrderInfo) (id : ℕ) (s : Store) (t : PaymentTx) : Prop
  | begun (hrest : t.rest = bodyOf (job info)) (hdone : t.done = [])
  | read (row : WalletRow) (hrow : s.db.wallet id = some row)
      (hrest : t.rest = afterRead info (WalletModel.from id row))
      (hdone : t.done = [⟨.findUniqueOrThrowWallet info.order.userId, some (id, row)⟩])
  | pointed (row : WalletRow) (point : PointModel) (hrow : s.db.wallet id = some row)
      (hrest : t.rest = afterPoint info (WalletModel.from id row))
      (hdone : t.done = [⟨.createPoint point, some point⟩,
        ⟨.findUniqueOrThrowWallet info.order.userId, some (id, row)⟩])
  | updated (row new : WalletRow) (point : PointModel) (version : ℕ) (total : ℚ)
      (hrest : t.rest = afterUpdate info (WalletModel.from id new))
      (hdone : t.done = [⟨.updateWallet id (some version) total, some (id, new)⟩,
        ⟨.createPoint point, some point⟩,
        ⟨.findUniqueOrThrowWallet info.order.userId, some (id, row)⟩])
  | emitted (hrest : t.rest = .succeed id) (hdone : t.done.length = 4)

section Stages

variable {info : CreateOrderInfo} {id : ℕ} {row₀ : WalletRow} {log : List (WalletJob × ℕ)} {s s' u : Store}
  {t : PaymentTx} {q : Query} {k : Option q.Answer → Statements ℕ}

theorem Stage.other (h : Stage info id s t) (hw : t.done ≠ [] → s'.db.wallet id = s.db.wallet id) :
    Stage info id s' t := by
  cases h with
  | begun hrest hdone => exact .begun hrest hdone
  | read row hrow hrest hdone =>
    exact .read row ((hw (by simp [hdone])).trans hrow) hrest hdone
  | pointed row point hrow hrest hdone =>
    exact .pointed row point ((hw (by simp [hdone])).trans hrow) hrest hdone
  | updated row new point version total hrest hdone =>
    exact .updated row new point version total hrest hdone
  | emitted hrest hdone => exact .emitted hrest hdone

theorem Stage.alive (h : Stage info id s t) (hfunds : Funds info id row₀ 0 log s)
    (hcovers : Covers info row₀.totalPoint) :
    t.rest = .succeed id ∨ ∃ q k, t.rest = .perform q k := by
  cases h with
  | begun hrest _ =>
    obtain ⟨k, hk, _⟩ := body_reads_wallet info
    exact .inr ⟨_, k, hrest.trans hk⟩
  | read row hrow hrest _ =>
    obtain ⟨mine, hmine, _, htotal⟩ := hfunds.wallet
    obtain rfl := Option.some.inj (hrow.symm.trans hmine)
    obtain ⟨k, hk, _⟩ :=
      @afterRead_creates info (WalletModel.from id row) (hfunds.covers hcovers hrow).payable
    exact .inr ⟨_, k, hrest.trans hk⟩
  | pointed row point _ hrest _ =>
    obtain ⟨k, hk, _⟩ := afterPoint_updates info (WalletModel.from id row)
    exact .inr ⟨_, k, hrest.trans hk⟩
  | updated _ new _ _ _ hrest _ =>
    obtain ⟨k, hk, _⟩ := afterUpdate_emits info (WalletModel.from id new)
    exact .inr ⟨_, k, hrest.trans hk⟩
  | emitted hrest _ => exact .inl hrest

theorem view_read {user : ℕ} {answer : ℕ × WalletRow}
    (h : Replays engine engine.guarded [⟨.findUniqueOrThrowWallet user, some answer⟩] s u) : u = s := by
  obtain ⟨_, rfl, _, hskip⟩ := h
  exact hskip (fun hg => hg)

theorem view_write {v : q.Answer} {done : Transactions.Done Query Query.Answer}
    (h : Replays engine engine.guarded (⟨q, some v⟩ :: done) s u) (hg : Guarded q) :
    ∃ w, Replays engine engine.guarded done s w ∧ u = w.after q v := by
  obtain ⟨w, hw, hrun, _⟩ := h
  exact ⟨w, hw, (hrun hg).2⟩

theorem Stage.call (h : Stage info id s t) (hfunds : Funds info id row₀ 0 log s)
    (hcovers : Covers info row₀.totalPoint) (hnew : s.db.outboxEvent (eventKey info) = none)
    (hview : Replays engine engine.guarded t.done s u) (hrest : t.rest = .perform q k) :
    t.done.length < 4 ∧ (∃ v, q.Allows u.db v) ∧
      ∀ v, q.Allows u.db v → Stage info id s ⟨job info, k (some v), ⟨q, some v⟩ :: t.done⟩ := by
  obtain ⟨mine, hmine, huser, htotal⟩ := hfunds.wallet
  have htop := hfunds.topUps
  cases h with
  | begun hbegun hdone =>
    obtain ⟨k', hk, hnext⟩ := body_reads_wallet info
    rw [hk] at hbegun
    cases hbegun.symm.trans hrest
    rw [hdone] at hview ⊢
    cases hview
    refine ⟨by simp, ⟨(id, mine), hmine, huser⟩, ?_⟩
    rintro ⟨id', row⟩ ⟨hrow, huser'⟩
    obtain rfl := hfunds.unique id' row hrow huser'
    exact .read row hrow (hnext _ _) rfl
  | read row hrow hread hdone =>
    obtain rfl := Option.some.inj (hrow.symm.trans hmine)
    obtain ⟨k', hk, hnext⟩ :=
      @afterRead_creates info (WalletModel.from id row) (hfunds.covers hcovers hrow).payable
    rw [hk] at hread
    cases hread.symm.trans hrest
    rw [hdone]
    refine ⟨by simp, ⟨_, rfl⟩, ?_⟩
    rintro _ rfl
    exact .pointed row _ hrow (hnext _) rfl
  | pointed row point hrow hpoint hdone =>
    obtain ⟨k', hk, hnext, _⟩ := afterPoint_updates info (WalletModel.from id row)
    rw [hk] at hpoint
    cases hpoint.symm.trans hrest
    rw [hdone] at hview ⊢
    obtain ⟨w, hw, rfl⟩ := view_write hview trivial
    obtain rfl := view_read hw
    refine ⟨by simp, ⟨(id, _), rfl, row, hrow, fun _ => Option.some.inj, rfl⟩, ?_⟩
    rintro ⟨id', new⟩ ⟨rfl, _⟩
    exact .updated row new point _ _ (hnext _) rfl
  | updated row new point version total hupdated hdone =>
    obtain ⟨k', hk, hnext⟩ := afterUpdate_emits info (WalletModel.from id new)
    rw [hk] at hupdated
    cases hupdated.symm.trans hrest
    rw [hdone] at hview ⊢
    obtain ⟨w, hw, rfl⟩ := view_write hview trivial
    obtain ⟨w', hw', rfl⟩ := view_write hw trivial
    obtain rfl := view_read hw'
    exact ⟨by simp, ⟨_, hnew, rfl⟩, fun v _ => .emitted (hnext v) rfl⟩
  | emitted hemitted _ => cases hemitted.symm.trans hrest

end Stages

inductive Phase (info : CreateOrderInfo) (id : ℕ) (row₀ : WalletRow) (b : Counter) : Prop
  | opening (hrest : b.rest = processOrderPayment info) (htx : b.txs.txs 0 = none)
      (hfunds : Funds info id row₀ 0 b.txs.log b.txs.committed)
      (hnew : b.txs.committed.db.outboxEvent (eventKey info) = none)
  | paying (t : PaymentTx) (hrest : b.rest = processOrderPayment info)
      (htx : b.txs.txs 0 = some t) (hjob : t.job = job info) (hstage : Stage info id b.txs.committed t)
      (hfunds : Funds info id row₀ 0 b.txs.log b.txs.committed)
      (hnew : b.txs.committed.db.outboxEvent (eventKey info) = none)
  | settled (hrest : b.rest = .succeed ()) (htx : b.txs.txs 0 = none)
      (hfunds : Funds info id row₀ info.totalAmount b.txs.log b.txs.committed)
      (hpaid : b.txs.committed.db.outboxEvent (eventKey info) = some (paidRow info))

structure Kept (s : Store) (info : CreateOrderInfo) (id : ℕ) (row₀ : WalletRow) (b : Counter) :
    Prop where
  reached : Transactions.Reaches engine bodyOf (Transactions.idle s) b.txs
  others : ∀ i t, i ≠ 0 → b.txs.txs i = some t → TopUp t.job
  phase : Phase info id row₀ b

section Steps

variable {s : Store} {info : CreateOrderInfo} {id : ℕ} {row₀ : WalletRow} {b b' : Counter}

theorem Payable.kept (h : Payable info id row₀ s) : Kept s info id row₀ (opening info s) :=
  ⟨.refl, by rintro _ _ _ ⟨⟩, .opening rfl rfl h.funds h.new⟩

theorem update_own (txs : ℕ → Option PaymentTx) (v : Option PaymentTx) :
    Function.update txs 0 v 0 = v := Function.update_self _ _ _

theorem topUp_commits {st st' : WalletState}
    (hreached : Transactions.Reaches engine bodyOf (Transactions.idle s) st)
    (hothers : ∀ i t, i ≠ 0 → st.txs i = some t → TopUp t.job)
    (hstep : Transactions.Step engine bodyOf st st') (hown : st'.txs 0 = st.txs 0) :
    (st'.committed = st.committed ∧ st'.log = st.log) ∨ ∃ j x, TopUp j ∧
      st'.log = st.log ++ [(j, x)] ∧
      Effect.Runs Store.exec j.body st.committed (.success x) st'.committed := by
  cases hstep with
  | start _ _ => exact .inl ⟨rfl, rfl⟩
  | call _ _ _ _ => exact .inl ⟨rfl, rfl⟩
  | fault _ => exact .inl ⟨rfl, rfl⟩
  | @commit i j x h t ht hr =>
    have hi : i ≠ 0 := by
      rintro rfl
      cases (update_own st.txs none).symm.trans (hown.trans ht)
    have hrun := (Transactions.Reaches.locked hreached).commit_runs (payment_fresh hreached) ht hr
    have hj := hothers i _ hi ht
    obtain ⟨userId, amount, rfl, _⟩ := id hj
    exact .inr ⟨_, x, hj, rfl, engine_exec ▸ hrun⟩
  | rollback => exact .inl ⟨rfl, rfl⟩

theorem Phase.topUp {st st' : WalletState} {rest : Service Unit} (h : Phase info id row₀ ⟨st, rest⟩)
    (hown : st'.txs 0 = st.txs 0) (hok : Undisturbed id ⟨st, rest⟩ ⟨st', rest⟩)
    (hfunds : ∀ taken, Funds info id row₀ taken st.log st.committed →
      Funds info id row₀ taken st'.log st'.committed)
    (hevents : st'.committed.db.outboxEvent = st.committed.db.outboxEvent) :
    Phase info id row₀ ⟨st', rest⟩ := by
  cases h with
  | opening hrest htx hf hnew =>
    exact .opening hrest (hown.trans htx) (hfunds _ hf) ((congrFun hevents _).trans hnew)
  | paying t hrest htx hjob hstage hf hnew =>
    refine .paying t hrest (hown.trans htx) hjob (hstage.other (fun hd => hok ⟨t, htx, hd⟩ ?_))
      (hfunds _ hf) ((congrFun hevents _).trans hnew)
    rw [hown, htx]
    exact Option.some_ne_none t
  | settled hrest htx hf hpaid =>
    exact .settled hrest (hown.trans htx) (hfunds _ hf) ((congrFun hevents _).trans hpaid)

theorem Kept.topUp {st st' : WalletState} {rest : Service Unit} (h : Kept s info id row₀ ⟨st, rest⟩)
    (hstep : Transactions.Step engine bodyOf st st') (hown : st'.txs 0 = st.txs 0)
    (hothers : ∀ i t, i ≠ 0 → st'.txs i = some t → TopUp t.job)
    (hok : Undisturbed id ⟨st, rest⟩ ⟨st', rest⟩) : Kept s info id row₀ ⟨st', rest⟩ := by
  refine ⟨h.reached.tail hstep, hothers, h.phase.topUp hown hok (fun taken hf => ?_) ?_⟩
  · obtain ⟨hcommitted, hlog⟩ | ⟨j, x, hj, hlog, hrun⟩ := topUp_commits h.reached h.others hstep hown
    · rw [hcommitted, hlog]
      exact hf
    · rw [hlog]
      exact hf.topUp hj hrun
  · obtain ⟨hcommitted, _⟩ | ⟨j, x, hj, _, hrun⟩ := topUp_commits h.reached h.others hstep hown
    · rw [hcommitted]
    · exact (topUp_sameSaga hj hrun).outboxEvent

theorem others_update {st : WalletState} {v : Option PaymentTx} {P : PaymentTx → Prop}
    (h : ∀ i t, i ≠ 0 → st.txs i = some t → P t) :
    ∀ i t, i ≠ 0 → Function.update st.txs 0 v i = some t → P t :=
  fun i t hi ht => h i t hi ((Function.update_of_ne hi _ _).symm.trans ht)

theorem Kept.call {j : WalletJob} {q : Query} {k : Option q.Answer → Statements ℕ}
    {done : Transactions.Done Query Query.Answer} {u : Store} {v : q.Answer} (h : Kept s info id row₀ b)
    (hcovers : Covers info row₀.totalPoint)
    (ht : b.txs.txs 0 = some ⟨j, .perform q k, done⟩)
    (hview : Replays engine engine.guarded done b.txs.committed u)
    (hfree : ∀ key ∈ locks q v, b.txs.held key = none ∨ b.txs.held key = some 0)
    (hv : q.Allows u.db v) : Kept s info id row₀ ⟨{ b.txs with
      held := grab b.txs.held 0 (locks q v)
      txs := Function.update b.txs.txs 0 (some ⟨j, k (some v), ⟨q, some v⟩ :: done⟩) }, b.rest⟩ := by
  refine ⟨h.reached.tail (.call ht hview hfree ⟨hv, rfl⟩), others_update h.others, ?_⟩
  cases h.phase with
  | opening _ htx _ _ => cases htx.symm.trans ht
  | paying t hrest htx hjob hstage hf hnew =>
    obtain rfl := Option.some.inj (htx.symm.trans ht)
    obtain rfl := hjob
    obtain ⟨_, _, hnext⟩ := hstage.call hf hcovers hnew hview rfl
    exact .paying _ hrest (update_own b.txs.txs _) rfl (hnext v hv) hf hnew
  | settled _ htx _ _ => cases htx.symm.trans ht

theorem Phase.open (h : Phase info id row₀ b) {t : PaymentTx} (ht : b.txs.txs 0 = some t) :
    b.rest = processOrderPayment info ∧ t.job = job info ∧
      Stage info id b.txs.committed t ∧ Funds info id row₀ 0 b.txs.log b.txs.committed ∧
      b.txs.committed.db.outboxEvent (eventKey info) = none := by
  cases h with
  | opening _ htx _ _ => cases htx.symm.trans ht
  | paying t' hrest htx hjob hstage hf hnew =>
    obtain rfl := Option.some.inj (htx.symm.trans ht)
    exact ⟨hrest, hjob, hstage, hf, hnew⟩
  | settled _ htx _ _ => cases htx.symm.trans ht

theorem Kept.step (h : Kept s info id row₀ b) (hcovers : Covers info row₀.totalPoint)
    (hstep : Step info b b') (hok : Undisturbed id b b') : Kept s info id row₀ b' := by
  cases hstep with
  | topUp hstep hown hothers => exact h.topUp hstep hown hothers hok
  | @begin st kind A body k htx =>
    refine ⟨h.reached.tail (.start (job info) htx), others_update h.others, ?_⟩
    cases h.phase with
    | opening hrest _ hf hnew =>
      exact .paying _ hrest (update_own st.txs _) rfl (.begun rfl rfl) hf hnew
    | paying t _ htx' _ _ _ _ => cases htx'.symm.trans htx
    | settled hrest _ _ _ => cases hrest
  | call ht hview hfree hv => exact h.call hcovers ht hview hfree hv
  | refused ht hview hno =>
    obtain ⟨_, _, hstage, hf, hnew⟩ := h.phase.open ht
    obtain ⟨_, ⟨v, hv⟩, _⟩ := hstage.call hf hcovers hnew hview rfl
    exact absurd hv (hno v)
  | @resolved st kind A body k j x done u a ht hview =>
    obtain ⟨hrest, hjob, hstage, hf, hnew⟩ := h.phase.open ht
    obtain hx | ⟨_, _, hperform⟩ := hstage.alive hf hcovers
    · obtain rfl := hjob
      obtain rfl := Effect.succeed.inj hx
      have hrun := (Transactions.Reaches.locked h.reached).commit_runs (payment_fresh h.reached) ht hview
      rw [engine_exec] at hrun
      obtain ⟨kind', body', k', hopens, hresolved, _⟩ := processOrderPayment_opens info
      cases hrest.trans hopens
      have hexact := payment_exact hrun (fun id' row hrow huser => ?_)
      · exact ⟨h.reached.tail (.commit ht hview), others_update h.others,
          .settled (hresolved a) (update_own st.txs none) (hf.pay hexact) (paid_event hexact)⟩
      · obtain rfl := hf.unique id' row hrow huser
        exact (hf.covers hcovers hrow).enough
    · cases hperform
  | rejected ht =>
    obtain ⟨_, _, hstage, hf, _⟩ := h.phase.open ht
    obtain hx | ⟨_, _, hperform⟩ := hstage.alive hf hcovers
    · cases hx
    · cases hperform
  | statement _ _ =>
    cases h.phase with
    | opening hrest _ _ _ => cases hrest
    | paying _ hrest _ _ _ _ _ => cases hrest
    | settled hrest _ _ _ => cases hrest
  | statementRefused _ =>
    cases h.phase with
    | opening hrest _ _ _ => cases hrest
    | paying _ hrest _ _ _ _ _ => cases hrest
    | settled hrest _ _ _ => cases hrest

end Steps

section Progress

variable {s : Store} {info : CreateOrderInfo} {id : ℕ} {row₀ : WalletRow} {b : Counter}

theorem Kept.free (h : Kept s info id row₀ b) (hcovers : Covers info row₀.totalPoint)
    (ks : List Row) : ∃ b', Reaches info id b b' ∧ Kept s info id row₀ b' ∧ b'.rest = b.rest ∧
      b'.txs.txs 0 = b.txs.txs 0 ∧ b'.txs.committed = b.txs.committed ∧
      ∀ key ∈ ks, b'.txs.held key = none ∨ b'.txs.held key = some 0 := by
  induction ks with
  | nil => exact ⟨b, .refl, h, rfl, rfl, rfl, by simp⟩
  | cons key ks ih =>
    obtain ⟨⟨st, rest⟩, hreach, hkept, hrest, htx, hcommitted, hfree⟩ := ih
    by_cases hkey : st.held key = none ∨ st.held key = some 0
    · exact ⟨⟨st, rest⟩, hreach, hkept, hrest, htx, hcommitted, List.forall_mem_cons.mpr ⟨hkey, hfree⟩⟩
    · push Not at hkey
      obtain ⟨i, hi⟩ := Option.ne_none_iff_exists'.mp hkey.1
      have hne : 0 ≠ i := by
        rintro rfl
        exact hkey.2 hi
      have hown : Function.update st.txs i none 0 = st.txs 0 := Function.update_of_ne hne _ _
      have hstep : Step info ⟨st, rest⟩ ⟨{ st with
          held := release st.held i, txs := Function.update st.txs i none }, rest⟩ := by
        refine .topUp .rollback hown (fun i' t hi' ht => ?_)
        by_cases he : i' = i
        · subst he
          cases (Function.update_self i' none st.txs).symm.trans ht
        · exact hkept.others i' t hi' ((Function.update_of_ne he _ _).symm.trans ht)
      have hok : Undisturbed id ⟨st, rest⟩ ⟨{ st with
          held := release st.held i, txs := Function.update st.txs i none }, rest⟩ := fun _ _ => rfl
      have hfreed : release st.held i key = none := by simp [release, hi]
      refine ⟨_, hreach.tail ⟨hstep, hok⟩, hkept.step hcovers hstep hok, hrest, hown.trans htx,
        hcommitted, List.forall_mem_cons.mpr ⟨.inl hfreed, fun k hk => ?_⟩⟩
      have hstays : release st.held i k = none ∨ release st.held i k = some 0 :=
        (hfree k hk).imp (fun (hnone : st.held k = none) => by simp [release, hnone])
          (Transactions.release_other hne)
      exact hstays

theorem Kept.commits {t : PaymentTx} (h : Kept s info id row₀ b) (ht : b.txs.txs 0 = some t)
    (hsucceed : t.rest = .succeed id) : ∃ b', Reaches info id b b' ∧ b'.rest = .succeed () := by
  obtain ⟨st, rest⟩ := b
  obtain ⟨j, p, done⟩ := t
  obtain rfl := hsucceed
  obtain ⟨hrest, _, _, _, _⟩ := h.phase.open ht
  obtain ⟨u, hview⟩ := (Transactions.Reaches.locked h.reached).replays 0 _ ht
  obtain ⟨kind, body, k, hopens, hresolved, _⟩ := processOrderPayment_opens info
  obtain rfl := hrest.trans hopens
  exact ⟨_, .single ⟨.resolved ⟨id, 0, 0, 0⟩ ht hview,
    fun _ hne => absurd (update_own st.txs none) hne⟩, hresolved _⟩

theorem Kept.finish (h : Kept s info id row₀ b) (hcovers : Covers info row₀.totalPoint)
    {t : PaymentTx} (ht : b.txs.txs 0 = some t) (n : ℕ) (hn : 4 ≤ t.done.length + n) :
    ∃ b', Reaches info id b b' ∧ b'.rest = .succeed () := by
  induction n generalizing b t with
  | zero =>
    obtain ⟨_, _, hstage, hf, hnew⟩ := h.phase.open ht
    obtain ⟨u, hview⟩ := (Transactions.Reaches.locked h.reached).replays 0 t ht
    obtain hsucceed | ⟨q, k, hperform⟩ := hstage.alive hf hcovers
    · exact h.commits ht hsucceed
    · obtain ⟨hlt, _, _⟩ := hstage.call hf hcovers hnew hview hperform
      omega
  | succ n ih =>
    obtain ⟨_, _, hstage, hf, hnew⟩ := h.phase.open ht
    obtain ⟨u, hview⟩ := (Transactions.Reaches.locked h.reached).replays 0 t ht
    obtain hsucceed | ⟨q, k, hperform⟩ := hstage.alive hf hcovers
    · exact h.commits ht hsucceed
    · obtain ⟨_, ⟨v, hv⟩, _⟩ := hstage.call hf hcovers hnew hview hperform
      obtain ⟨b', hreach, hkept, _, htx, hcommitted, hfree⟩ := h.free hcovers (locks q v)
      obtain ⟨j, p, done⟩ := t
      obtain rfl := hperform
      rw [← hcommitted] at hview
      have ht' := htx.trans ht
      have hnext := hkept.call hcovers ht' hview hfree hv
      obtain ⟨b'', hreach', hdone⟩ := ih hnext (update_own b'.txs.txs _)
        (by simp only [List.length_cons] at hn ⊢; omega)
      have hcall : Step info b' _ := .call ht' hview hfree hv
      exact ⟨b'', (hreach.tail ⟨hcall, fun _ _ => rfl⟩).trans hreach', hdone⟩

end Progress

section Runs

variable {s : Store} {info : CreateOrderInfo} {id : ℕ} {row₀ : WalletRow} {b : Counter}

theorem Phase.outcome (h : Phase info id row₀ b) :
    (b.rest = processOrderPayment info ∧
      b.txs.committed.db.outboxEvent (eventKey info) = none) ∨
    (b.rest = .succeed () ∧ b.txs.committed.db.outboxEvent (eventKey info) = some (paidRow info) ∧
      Funds info id row₀ info.totalAmount b.txs.log b.txs.committed) := by
  cases h with
  | opening hrest _ _ hnew => exact .inl ⟨hrest, hnew⟩
  | paying _ hrest _ _ _ _ hnew => exact .inl ⟨hrest, hnew⟩
  | settled hrest _ hf hpaid => exact .inr ⟨hrest, hpaid, hf⟩

theorem Kept.reaches (hs : Payable info id row₀ s) (hexact : Exact info)
    (h : Reaches info id (opening info s) b) : Kept s info id row₀ b := by
  induction h with
  | refl => exact hs.kept
  | tail _ hnext ih => exact ih.step (hs.covers hexact) hnext.1 hnext.2

end Runs

section Scenes

variable {info : CreateOrderInfo} {s : Store} {held : Row → Option ℕ} {pay charge : Option PaymentTx}
  {log : List (WalletJob × ℕ)} {rest : Service Unit} {j : WalletJob}
  {h : Transactions.Done Query Query.Answer}

def scene (s : Store) (held : Row → Option ℕ) (pay charge : Option PaymentTx)
    (log : List (WalletJob × ℕ)) : WalletState :=
  ⟨s, held, Function.update (Function.update (fun _ => none) 1 charge) 0 pay, log⟩

theorem scene_pay : (scene s held pay charge log).txs 0 = pay := by simp [scene]

theorem play_begin {kind : TransactionKind} {A : Type} {body : Statements A} {k : Settled A → Service Unit}
    (hopens : processOrderPayment info = .perform (.transaction kind A body) k) :
    Step info (opening info s) ⟨scene s (fun _ => none) (some ⟨job info, bodyOf (job info), []⟩) none [],
      .perform (.transaction kind A body) k⟩ := by
  have hopening : opening info s =
      ⟨scene s (fun _ => none) none none [], .perform (.transaction kind A body) k⟩ := by
    simp [opening, hopens, Transactions.idle, scene]
  have hstep : Step info ⟨scene s (fun _ => none) none none [], .perform (.transaction kind A body) k⟩ _ :=
    .begin scene_pay
  rw [hopening]
  simpa only [scene, Function.update_idem] using hstep

theorem play_call {q : Query} {k : Option q.Answer → Statements ℕ} {u : Store} {v : q.Answer}
    {p p' : Statements ℕ} (hp : p = .perform q k) (hk : k (some v) = p')
    (hr : Replays engine engine.guarded h s u) (hv : q.Allows u.db v)
    (hfree : ∀ key ∈ locks q v, held key = none ∨ held key = some 0) :
    Step info ⟨scene s held (some ⟨j, p, h⟩) charge log, rest⟩
      ⟨scene s (grab held 0 (locks q v)) (some ⟨j, p', ⟨q, some v⟩ :: h⟩) charge log, rest⟩ := by
  have hstep : Step info ⟨scene s held (some ⟨j, .perform q k, h⟩) charge log, rest⟩ _ :=
    .call scene_pay hr hfree hv
  rw [hp, ← hk]
  simpa only [scene, Function.update_idem] using hstep

def dimes : CreateOrderInfo := ⟨⟨1, 7, .pendingPayment⟩, [⟨1, 3, 1 / 10⟩]⟩

def coins : Store :=
  { purse with db := { purse.db with wallet := fun id => if id = 1 then some ⟨7, 0, 3 / 10⟩ else none } }

theorem payable_dimes : Payable dimes 1 ⟨7, 0, 3 / 10⟩ coins where
  wallet := rfl
  user := rfl
  unique id row hrow _ := by
    by_contra hid
    simp [coins, hid] at hrow
  enough := by norm_num [CreateOrderInfo.totalAmount, dimes]
  new := rfl

/-- In doubles three times 0.1 is more than 0.3. -/
theorem dimes_amount : ¬ amount dimes ≤ double (3 / 10) := by
  have hprice : double (1 / 10) = 7205759403792794 / 2 ^ 56 := by
    rw [double_eq (k := -4) (m := 7205759403792794) (by norm_num) (by norm_num) (by norm_num [roundEven])]
    norm_num
  have hitem : double (7205759403792794 / 2 ^ 56 * 3) = 5404319552844596 / 2 ^ 54 := by
    rw [double_eq (k := -2) (m := 5404319552844596) (by norm_num) (by norm_num) (by norm_num [roundEven])]
    norm_num
  have hsum : double (5404319552844596 / 2 ^ 54) = 5404319552844596 / 2 ^ 54 := by
    rw [double_eq (k := -2) (m := 5404319552844596) (by norm_num) (by norm_num) (by norm_num [roundEven])]
    norm_num
  have hbalance : double (3 / 10) = 5404319552844595 / 2 ^ 54 := by
    rw [double_eq (k := -2) (m := 5404319552844595) (by norm_num) (by norm_num) (by norm_num [roundEven])]
    norm_num
  have hamount : amount dimes = 5404319552844596 / 2 ^ 54 := by
    simp only [amount, dimes, List.map_cons, List.map_nil, List.foldl_cons, List.foldl_nil, zero_add]
    rw [hprice]
    exact (congrArg double hitem).trans hsum
  rw [hamount, hbalance]
  norm_num

/-- Nobody tops up the wallet, and a payment whose sum is lifted by the doubles is recorded as
failed though the wallet covers it. -/
theorem rounded_failure : ∃ info id row₀ s b row, Payable info id row₀ s ∧
    Reaches info id (opening info s) b ∧
    b.txs.committed.db.outboxEvent (eventKey info) = some row ∧ row.status = .fail := by
  obtain ⟨kind, body, k, hopens, _, hrejected⟩ := processOrderPayment_opens dimes
  obtain ⟨k₀, hread, hafterRead⟩ := body_reads_wallet dimes
  obtain ⟨e, hrefuses⟩ :=
    @afterRead_refuses dimes (WalletModel.from 1 ⟨7, 0, 3 / 10⟩) dimes_amount
  obtain ⟨k', hrecord⟩ := hrejected (some e)
  have hrefused : k₀ (some (1, ⟨7, 0, 3 / 10⟩)) = .fail e := (hafterRead 1 _).trans hrefuses
  have hfind : Step dimes ⟨scene coins (fun _ => none) (some ⟨job dimes, bodyOf (job dimes), []⟩) none [],
      .perform (.transaction kind WalletModel body) k⟩ _ :=
    play_call hread hrefused rfl ⟨rfl, rfl⟩ (by simp [locks])
  have hreject : Step dimes ⟨scene coins (grab (fun _ => none) 0 [])
      (some ⟨job dimes, .fail e, [⟨.findUniqueOrThrowWallet 7, some (1, ⟨7, 0, 3 / 10⟩)⟩]⟩) none [],
      .perform (.transaction kind WalletModel body) k⟩ _ := .rejected scene_pay
  rw [hrecord] at hreject
  have hfree : ∀ key, release (grab (fun _ => none) 0 ([] : List Row)) 0 key = none :=
    fun key => by simp [grab, release]
  have hnew : (Query.createOutboxEvent (eventKey dimes) (Json.order dimes).stringify .fail).Allows coins.db
      ⟨(Json.order dimes).stringify, .fail⟩ := ⟨rfl, rfl⟩
  have hfailed : Function.update coins.db.outboxEvent (eventKey dimes)
      (some ⟨(Json.order dimes).stringify, .fail⟩) (eventKey dimes) = _ := Function.update_self _ _ _
  have hrun : Reaches dimes 1 (opening dimes coins) _ :=
    .tail (.tail (.tail .refl ⟨play_begin hopens, fun _ _ => rfl⟩) ⟨hfind, fun _ _ => rfl⟩)
      ⟨hreject, fun _ _ => rfl⟩
  exact ⟨dimes, 1, _, coins, _, _, payable_dimes,
    hrun.tail ⟨.statement (fun key _ => hfree key) hnew, fun _ _ => rfl⟩, hfailed, rfl⟩

end Scenes

end EcommerceService.PaymentConflicts
