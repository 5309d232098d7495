import Mathlib.Algebra.Order.Ring.Rat
import Mathlib.Tactic.Linarith
import Mathlib.Tactic.NormNum
import EcommerceService.RowLocks

namespace EcommerceService.WalletLedger

open EcommerceService.Effects EcommerceService.Errors EcommerceService.Models
open EcommerceService.Database EcommerceService.Repositories EcommerceService.Backend
open EcommerceService.Services EcommerceService.Facades EcommerceService.TransactionEffects
open EcommerceService.Transactions EcommerceService.RowLocks

/-- The transactions on the wallets. -/
inductive WalletJob where
  | chargePoint (userId : ℕ) (amount : ℚ)
  | completePayment (userId : ℕ) (amount : ℚ)
  | processOrderPayment (orderInfo : CreateOrderInfo)

namespace WalletJob

def body : WalletJob → Statements ℕ
  | chargePoint userId amount =>
      (PrismaService.effectWithTransaction (PointService.charging userId amount)).map (·.walletId)
  | completePayment userId amount =>
      (PrismaService.effectWithTransaction (WalletService.completePayment userId amount)).map (·.id)
  | processOrderPayment orderInfo =>
      (PrismaService.effectWithTransaction (UserFacade.paying orderInfo)).map (·.id)

def userId : WalletJob → ℕ
  | chargePoint userId _ => userId
  | completePayment userId _ => userId
  | processOrderPayment orderInfo => orderInfo.order.userId

def amount : WalletJob → ℚ
  | chargePoint _ amount => amount
  | completePayment _ amount => -amount
  | processOrderPayment orderInfo => -orderInfo.totalAmount

def transactionType : WalletJob → TransactionType
  | chargePoint _ _ => .charge
  | completePayment _ _ => .use
  | processOrderPayment _ => .use

end WalletJob

abbrev WalletState : Type := State ℕ WalletJob Query Query.Answer Store Row Error ℕ

section AfterRead

def charged (amount : ℚ) (read : Statements WalletModel) : Statements PointModel :=
  ((read.map (fun wallet => wallet.charge amount)).flatMap WalletRepository.updatePoint).flatMap
    (fun wallet => PointRepository.create ⟨wallet.id, amount, .charge⟩)

def paid (amount : ℚ) (read : Statements WalletModel) : Statements WalletModel :=
  (((read.tap (fun wallet => wallet.payable amount)).tap (WalletService.createPoint amount)).flatMap
    (WalletService.updateWallet amount)).catchIf
    (fun e => !e.isApplication) (fun _ => .fail (.appConflict ErrorCodes.paymentFailed))

variable {s t : Store} {id : ℕ} {row : WalletRow} {amount : ℚ}

def Updated (id version : ℕ) (totalPoint : ℚ) (s t : Store) : Prop :=
  ∃ old, s.db.wallet id = some old ∧ old.version = version ∧
    t.db.wallet = Function.update s.db.wallet id
      (some { old with version := old.version + 1, totalPoint := totalPoint }) ∧
    t.db.point = s.db.point

theorem exec_updateWallet {version : ℕ} {totalPoint : ℚ} {answer : ℕ × WalletRow}
    (h : Store.exec (.updateWallet id (some version) totalPoint) s (some answer) t) :
    answer.1 = id ∧ Updated id version totalPoint s t := by
  obtain ⟨id', new⟩ := answer
  obtain ⟨⟨rfl, old, hold, hversion, rfl⟩, rfl⟩ := h
  exact ⟨rfl, old, hold, hversion _ rfl, rfl, rfl⟩

theorem runs_update {version : ℕ} {totalPoint : ℚ} {wallet : WalletModel}
    (h : Effect.Runs Store.exec (WalletRepository.update id totalPoint (some version)) s
      (.success wallet) t) : wallet.id = id ∧ Updated id version totalPoint s t := by
  obtain ⟨answer, hanswer, rfl⟩ :=
    Effect.runs_map_success.mp ((Effect.runs_catchAll_success (fun _ => ⟨_, rfl⟩)).mp h)
  exact exec_updateWallet (runs_tryPromise.mp hanswer)

theorem runs_updatePoint {params wallet : WalletModel}
    (h : Effect.Runs Store.exec (WalletRepository.updatePoint params) s (.success wallet) t) :
    wallet.id = params.id ∧ Updated params.id params.version params.totalPoint s t := by
  obtain ⟨answer, hanswer, rfl⟩ :=
    Effect.runs_map_success.mp ((Effect.runs_catchAll_success (fun _ => ⟨_, rfl⟩)).mp h)
  obtain ⟨answer', u, hupdate, hvalid⟩ := Effect.runs_flatMap_success.mp hanswer
  rw [WalletRepository.validateVersion] at hvalid
  split at hvalid
  · obtain ⟨heq, rfl⟩ := Effect.runs_succeed.mp hvalid
    cases heq
    exact exec_updateWallet (runs_tryPromise.mp hupdate)
  · simp at hvalid

/-- What a transaction that has read the row of the wallet `id` has done when it succeeds. -/
structure Booked (job : WalletJob) (id : ℕ) (row : WalletRow) (s t : Store) : Prop where
  wallet : ∃ old, s.db.wallet id = some old ∧ old.version = row.version ∧
    t.db.wallet = Function.update s.db.wallet id
      (some { old with version := old.version + 1, totalPoint := row.totalPoint + job.amount })
  point : t.db.point = s.db.point ++ [⟨id, job.amount, job.transactionType⟩]
  covered : (∃ userId amount, job = .chargePoint userId amount) ∨ 0 ≤ row.totalPoint + job.amount

theorem runs_charged {userId : ℕ} {point : PointModel}
    (h : Effect.Runs Store.exec (charged amount (.succeed (WalletModel.from id row))) s
      (.success point) t) : point.walletId = id ∧ Booked (.chargePoint userId amount) id row s t := by
  obtain ⟨wallet, u, hupdate, hpoint⟩ := Effect.runs_flatMap_success.mp h
  obtain ⟨hid, old, hold, hversion, hwallet, hpoints⟩ := runs_updatePoint hupdate
  obtain ⟨rfl, rfl⟩ := runs_tryPromise.mp hpoint
  have hid' : wallet.id = id := hid
  rw [hid']
  exact ⟨rfl, ⟨old, hold, hversion, hwallet⟩, congrArg (· ++ _) hpoints, .inl ⟨_, _, rfl⟩⟩

theorem runs_paid (userId : ℕ) {wallet : WalletModel}
    (h : Effect.Runs Store.exec (paid amount (.succeed (WalletModel.from id row))) s
      (.success wallet) t) : wallet.id = id ∧ Booked (.completePayment userId amount) id row s t := by
  have hpaid := (Effect.runs_catchAll_success (fun e => by split <;> exact ⟨_, rfl⟩)).mp h
  obtain ⟨wallet', u, hpoint, hupdate⟩ := Effect.runs_flatMap_success.mp hpaid
  obtain ⟨v, point, hpayable, hcreate⟩ := Effect.runs_tap_success.mp hpoint
  obtain ⟨w, b, hread, henough⟩ := Effect.runs_tap_success.mp hpayable
  obtain ⟨hwallet, rfl⟩ := Effect.runs_succeed.mp hread
  cases hwallet
  rw [WalletModel.payable] at henough
  split at henough
  · rename_i hle
    obtain ⟨_, rfl⟩ := Effect.runs_succeed.mp henough
    obtain ⟨rfl, rfl⟩ := runs_tryPromise.mp hcreate
    obtain ⟨hid, old, hold, hversion, hwallet, hpoints⟩ := runs_update hupdate
    have hle' : amount ≤ row.totalPoint := hle
    refine ⟨hid, ⟨old, hold, hversion, ?_⟩, hpoints, .inr ?_⟩
    · rw [WalletJob.amount, ← sub_eq_add_neg]
      exact hwallet
    · rw [WalletJob.amount, ← sub_eq_add_neg]
      exact sub_nonneg.mpr hle'
  · simp at henough

end AfterRead

section Read

theorem confined_charged (amount : ℚ) (wallet : WalletModel) :
    Effect.Confined Effect.anyAnswer Guarded (fun _ => True) (charged amount (.succeed wallet)) := by
  have hupdate : ∀ params : WalletModel, Effect.Confined Effect.anyAnswer Guarded (fun _ => True)
      (WalletRepository.updatePoint params) := by
    intro params
    refine ((confined_tryPromise (Q := fun _ => True) trivial trivial).flatMap
      (fun answer => ?_)).map.catchAll
      (fun _ _ => Effect.confined_fail.mpr trivial)
    rw [WalletRepository.validateVersion]
    split
    · exact Effect.confined_succeed
    · exact Effect.confined_fail.mpr trivial
  exact (Effect.Confined.flatMap Effect.confined_succeed.map hupdate).flatMap
    (fun _ => confined_tryPromise trivial trivial)

theorem confined_paid (amount : ℚ) (wallet : WalletModel) :
    Effect.Confined Effect.anyAnswer Guarded (fun _ => True) (paid amount (.succeed wallet)) := by
  have hcreate : ∀ wallet : WalletModel, Effect.Confined Effect.anyAnswer Guarded (fun _ => True)
      (WalletService.createPoint amount wallet) := fun _ => confined_tryPromise trivial trivial
  refine (((Effect.confined_succeed.tap (fun wallet => payable_confined wallet amount)).tap
    hcreate).flatMap (fun _ => walletUpdate_confined trivial)).catchAll (fun e _ => ?_)
  split
  · exact Effect.confined_fail.mpr trivial
  · exact Effect.confined_fail.mpr trivial

theorem confined_transaction {A : Type} {f : A → ℕ} {effect : Statements A}
    (h : Effect.Confined Effect.anyAnswer Guarded (fun _ => True) effect) :
    Effect.Confined Effect.anyAnswer Guarded (fun _ => True)
      ((PrismaService.effectWithTransaction effect).map f) := by
  refine (h.catchAll (fun e _ => ?_)).map
  split
  · exact Effect.confined_fail.mpr trivial
  · exact Effect.confined_fail.mpr trivial

theorem runs_transaction {A : Type} {f : A → ℕ} {effect : Statements A} {s t : Store} {x : ℕ}
    (h : Effect.Runs Store.exec ((PrismaService.effectWithTransaction effect).map f) s
      (.success x) t) : ∃ a, Effect.Runs Store.exec effect s (.success a) t ∧ x = f a := by
  obtain ⟨a, ha, hx⟩ := Effect.runs_map_success.mp h
  exact ⟨a, runs_effectWithTransaction.mp ha, hx⟩

/-- Every transaction reads its wallet first. What it does after that only locks rows,
and it only succeeds under the version it has read. -/
theorem body_reads (job : WalletJob) : ∃ k,
    job.body = .perform (.findUniqueOrThrowWallet job.userId) k ∧
    (∀ r, Effect.Confined Effect.anyAnswer Guarded (fun _ => True) (k r)) ∧
    (∀ s x t, ¬ Effect.Runs Store.exec (k none) s (.success x) t) ∧
    ∀ id row s x t, Effect.Runs Store.exec (k (some (id, row))) s (.success x) t →
      x = id ∧ Booked job id row s t := by
  cases job with
  | chargePoint userId amount =>
    refine ⟨_, rfl, fun r => ?_, fun s x t h => ?_, fun id row s x t h => ?_⟩
    · cases r with
      | none => exact Effect.confined_fail.mpr trivial
      | some answer => exact confined_transaction (confined_charged amount _)
    · cases (Effect.runs_fail.mp h).1
    · obtain ⟨point, hpoint, rfl⟩ := @runs_transaction _ _ (charged amount _) _ _ _ h
      exact runs_charged hpoint
  | completePayment userId amount =>
    refine ⟨_, rfl, fun r => ?_, fun s x t h => ?_, fun id row s x t h => ?_⟩
    · cases r with
      | none => exact Effect.confined_fail.mpr trivial
      | some answer => exact confined_transaction (confined_paid amount _)
    · cases (Effect.runs_fail.mp h).1
    · obtain ⟨wallet, hwallet, rfl⟩ := runs_transaction h
      exact runs_paid userId hwallet
  | processOrderPayment orderInfo =>
    refine ⟨_, rfl, fun r => ?_, fun s x t h => ?_, fun id row s x t h => ?_⟩
    · cases r with
      | none => exact Effect.confined_fail.mpr trivial
      | some answer =>
        exact confined_transaction ((confined_paid _ _).tap
          (fun _ => (confined_tryPromise trivial trivial).map))
    · cases (Effect.runs_fail.mp h).1
    · obtain ⟨wallet, hwallet, rfl⟩ := runs_transaction h
      obtain ⟨u, _, hpaid, hemit⟩ := Effect.runs_tap_success.mp hwallet
      obtain ⟨_, hcreate⟩ := runs_createOutboxEvent hemit
      obtain ⟨_, rfl⟩ := hcreate
      obtain ⟨hid, hbooked⟩ := runs_paid orderInfo.order.userId hpaid
      exact ⟨hid, ⟨hbooked.wallet, hbooked.point, .inr (hbooked.covered.resolve_left (by simp))⟩⟩

end Read

section Serialized

/-- A read of a wallet says what its row still is, or that its version has grown. -/
def seen : (q : Query) → q.Answer → Store → Prop
  | .findUniqueOrThrowWallet userId, (id, row), s => row.userId = userId ∧
      ∃ current, s.db.wallet id = some current ∧ (current = row ∨ row.version < current.version)
  | _, _, _ => True

theorem seen_of_run {q : Query} {v : q.Answer} {s t : Store} (h : engine.run q s v t) :
    seen q v s := by
  cases q with
  | findUniqueOrThrowWallet userId =>
    obtain ⟨⟨hrow, huser⟩, _⟩ := h
    exact ⟨huser, v.2, hrow, .inl rfl⟩
  | _ => trivial

theorem run_wallet {q : Query} {v : q.Answer} {s t : Store} (h : engine.run q s v t) {id : ℕ}
    {row : WalletRow} (hrow : s.db.wallet id = some row) :
    ∃ row', t.db.wallet id = some row' ∧ (row' = row ∨ row.version < row'.version) := by
  obtain ⟨hallows, rfl⟩ := h
  cases q with
  | updateWallet id' version totalPoint =>
    obtain ⟨answer, new⟩ := v
    obtain ⟨rfl, old, hold, _, rfl⟩ := hallows
    by_cases hid : id = answer
    · subst hid
      cases hold.symm.trans hrow
      exact ⟨_, Function.update_self _ _ _, .inr (Nat.lt_succ_self _)⟩
    · exact ⟨row, (Function.update_of_ne hid _ _).trans hrow, .inl rfl⟩
  | _ => exact ⟨row, hrow, .inl rfl⟩

theorem seen_keeps {q q' : Query} {v : q.Answer} {v' : q'.Answer} {s t : Store}
    (h : engine.run q' s v' t) (hs : seen q v s) : seen q v t := by
  cases q with
  | findUniqueOrThrowWallet userId =>
    obtain ⟨huser, current, hcurrent, hseen⟩ := hs
    obtain ⟨row', hrow', hgrown⟩ := run_wallet h hcurrent
    refine ⟨huser, row', hrow', ?_⟩
    obtain rfl | hlt := hgrown
    · exact hseen
    · obtain rfl | hlt' := hseen
      · exact .inr hlt
      · exact .inr (hlt'.trans hlt)
  | _ => trivial

/-- Transactions that read a wallet first, only lock rows after that, and only succeed under the
version they have read, have read the row that is still there when they succeed. -/
theorem fresh_of_reads {Job : Type} {body : Job → Statements ℕ} {s : Store}
    {st : State ℕ Job Query Query.Answer Store Row Error ℕ}
    (hreads : ∀ job, ∃ userId k, body job = .perform (.findUniqueOrThrowWallet userId) k ∧
      (∀ r, Effect.Confined Effect.anyAnswer Guarded (fun _ => True) (k r)) ∧
      ∀ id row s x t, Effect.Runs Store.exec (k (some (id, row))) s (.success x) t →
        ∃ old, s.db.wallet id = some old ∧ old.version = row.version)
    (h : Reaches engine body (idle s) st) : Fresh engine st := by
  have hrun : ∀ c v s t, engine.run c s v t → seen c v s := fun _ _ _ _ => seen_of_run
  refine fresh_of_validated hrun (fun _ _ _ _ _ _ => seen_keeps) (fun job => ?_) h
  obtain ⟨userId, k, hbody, hguarded, hversions⟩ := hreads job
  refine ⟨_, k, hbody, fun hg => hg, hguarded, ?_⟩
  rintro ⟨id, row⟩ s a t ⟨huser, current, hcurrent, hseen⟩ hr
  rw [engine_exec] at hr
  obtain ⟨old, hold, hversion⟩ := hversions id row s a t hr
  obtain rfl := Option.some.inj (hold.symm.trans hcurrent)
  obtain rfl := hseen.resolve_right (by omega)
  exact ⟨⟨hcurrent, huser⟩, (Store.after_read rfl rfl).symm⟩

theorem wallet_fresh {s : Store} {st : WalletState} (h : Reaches engine WalletJob.body (idle s) st) :
    Fresh engine st := by
  refine fresh_of_reads (fun job => ?_) h
  obtain ⟨k, hbody, hguarded, _, hbooked⟩ := body_reads job
  refine ⟨job.userId, k, hbody, hguarded, fun id row s x t hr => ?_⟩
  obtain ⟨_, ⟨old, hold, hversion, _⟩, _, _⟩ := hbooked id row s x t hr
  exact ⟨old, hold, hversion⟩

theorem job_booked {job : WalletJob} {s t : Store} {x : ℕ}
    (h : Effect.Runs Store.exec job.body s (.success x) t) :
    ∃ row, s.db.wallet x = some row ∧ row.userId = job.userId ∧ Booked job x row s t := by
  obtain ⟨k, hbody, _, hnone, hbooked⟩ := body_reads job
  rw [hbody] at h
  obtain ⟨r, u, hread, hrest⟩ := Effect.runs_perform.mp h
  cases r with
  | none => exact absurd hrest (hnone u x t)
  | some answer =>
    obtain ⟨id, row⟩ := answer
    obtain ⟨⟨hrow, huser⟩, hu⟩ := hread
    obtain rfl := hu.trans (Store.after_read rfl rfl)
    obtain ⟨rfl, hb⟩ := hbooked id row _ x t hrest
    exact ⟨row, hrow, huser, hb⟩

end Serialized

section Ledger

def pointOf (e : WalletJob × ℕ) : PointModel := ⟨e.2, e.1.amount, e.1.transactionType⟩

def amountOf (id : ℕ) (points : List PointModel) : ℚ :=
  ((points.filter (fun point => point.walletId = id)).map (·.amount)).sum

def countOf (id : ℕ) (log : List (WalletJob × ℕ)) : ℕ := log.countP (fun e => e.2 = id)

theorem amountOf_append (id : ℕ) (points : List PointModel) (point : PointModel) :
    amountOf id (points ++ [point]) =
      amountOf id points + (if point.walletId = id then point.amount else 0) := by
  by_cases h : point.walletId = id <;> simp [amountOf, h]

theorem countOf_append (id : ℕ) (log : List (WalletJob × ℕ)) (e : WalletJob × ℕ) :
    countOf id (log ++ [e]) = countOf id log + (if e.2 = id then 1 else 0) := by
  simp [countOf, List.countP_append, List.countP_cons]

/-- What the committed transactions, one after the other, make of the initial wallets and
points `s`. -/
structure Ledger (s t : Store) (log : List (WalletJob × ℕ)) : Prop where
  point : t.db.point = s.db.point ++ log.map pointOf
  wallet : ∀ id row₀, s.db.wallet id = some row₀ → ∃ row, t.db.wallet id = some row ∧
    row.totalPoint = row₀.totalPoint + amountOf id (log.map pointOf) ∧
    row.version = row₀.version + countOf id log

theorem Ledger.initial (s : Store) : Ledger s s [] :=
  ⟨by simp, fun id row hrow => ⟨row, hrow, by simp [amountOf], by simp [countOf]⟩⟩

theorem Ledger.step {s t u : Store} {log : List (WalletJob × ℕ)} {job : WalletJob} {x : ℕ}
    (h : Ledger s t log) (hr : Effect.Runs Store.exec job.body t (.success x) u) :
    Ledger s u (log ++ [(job, x)]) := by
  obtain ⟨read, hread, _, ⟨old, hold, _, hwallet⟩, hpoint, _⟩ := job_booked hr
  obtain rfl := Option.some.inj (hold.symm.trans hread)
  refine ⟨?_, fun id row₀ hrow₀ => ?_⟩
  · rw [hpoint, h.point, List.map_append, List.append_assoc]
    rfl
  · obtain ⟨row, hrow, htotal, hversion⟩ := h.wallet id row₀ hrow₀
    rw [List.map_append, List.map_singleton, amountOf_append, countOf_append, hwallet]
    by_cases hid : x = id
    · subst hid
      obtain rfl := Option.some.inj (hread.symm.trans hrow)
      refine ⟨_, Function.update_self _ _ _, ?_, ?_⟩
      · simp [pointOf, htotal, add_assoc]
      · simp [hversion, Nat.add_assoc]
    · refine ⟨row, (Function.update_of_ne (Ne.symm hid) _ _).trans hrow, ?_, ?_⟩
      · simp [pointOf, hid, htotal]
      · simp [hid, hversion]

/-- The database changes in the commit of a transaction that has succeeded, and in no other step. -/
theorem changed_by_commit {st st' : WalletState} (h : Step engine WalletJob.body st st') :
    (st'.committed = st.committed ∧ st'.log = st.log) ∨
      ∃ i job id done, st.txs i = some ⟨job, .succeed id, done⟩ ∧ st'.txs i = none ∧
        st'.log = st.log ++ [(job, id)] := by
  cases h with
  | start _ _ => exact .inl ⟨rfl, rfl⟩
  | call _ _ _ _ => exact .inl ⟨rfl, rfl⟩
  | fault _ => exact .inl ⟨rfl, rfl⟩
  | commit ht _ => exact .inr ⟨_, _, _, _, ht, Function.update_self _ _ _, rfl⟩
  | rollback => exact .inl ⟨rfl, rfl⟩

/-- The wallets agree with the points, whatever the interleaving; each committed
transaction has written one point, and no other transaction has written anything. -/
theorem wallet_agrees_with_points {s : Store} {st : WalletState}
    (h : Reaches engine WalletJob.body (idle s) st) :
    (∃ written, st.committed.db.point = s.db.point ++ written ∧ written = st.log.map pointOf ∧
      ∀ id row₀, s.db.wallet id = some row₀ → ∃ row, st.committed.db.wallet id = some row ∧
        row.totalPoint = row₀.totalPoint + amountOf id written ∧
        row.version = row₀.version + countOf id st.log) ∧
    ∀ st', Step engine WalletJob.body st st' →
      (st'.committed = st.committed ∧ st'.log = st.log) ∨
        ∃ i job id done, st.txs i = some ⟨job, .succeed id, done⟩ ∧ st'.txs i = none ∧
          st'.log = st.log ++ [(job, id)] := by
  have hserial := Reaches.serial (fun _ h => wallet_fresh h) h
  have hledger := hserial.invariant (I := Ledger s) (.initial s)
    (fun _ _ _ _ _ hl hr => hl.step (engine_exec ▸ hr))
  exact ⟨⟨_, hledger.point, rfl, hledger.wallet⟩, fun _ => changed_by_commit⟩

def purse : Store :=
  ⟨⟨fun _ => none, [], fun _ => none, fun id => if id = 1 then some ⟨7, 0, 10⟩ else none, [],
    fun _ => none⟩, []⟩

/-- A transaction has read the wallet when another one is committed, and is rolled back. -/
theorem overtaken {other : WalletJob} {s t : Store} {x : ℕ} (job : WalletJob) (id : ℕ)
    (row : WalletRow) (hrow : s.db.wallet id = some row) (huser : row.userId = job.userId)
    (hr : Effect.Runs Store.exec other.body s (.success x) t) : ∃ between : WalletState,
      Reaches engine WalletJob.body (idle s) between ∧ between.log = [(other, x)] ∧
      (∃ rest, between.txs 1 =
        some ⟨job, rest, [⟨.findUniqueOrThrowWallet job.userId, some (id, row)⟩]⟩) ∧
      Reaches engine WalletJob.body between ⟨t, fun _ => none, fun _ => none, [(other, x)]⟩ := by
  obtain ⟨k, hbody, _⟩ := body_reads job
  have hread : engine.run (.findUniqueOrThrowWallet job.userId) s (id, row) s :=
    ⟨⟨hrow, huser⟩, (Store.after_read rfl rfl).symm⟩
  let tx : Tx WalletJob Query Query.Answer Error ℕ :=
    ⟨job, k (some (id, row)), [⟨.findUniqueOrThrowWallet job.userId, some (id, row)⟩]⟩
  let txs : ℕ → Option (Tx WalletJob Query Query.Answer Error ℕ) := Function.update (fun _ => none) 1 (some tx)
  have hbegun : Reaches engine WalletJob.body (idle s) ⟨s, grab (fun _ => none) 1 [], txs, []⟩ :=
    .begun rfl hbody hread
  rw [grab_nil] at hbegun
  have hcommitted : Reaches engine WalletJob.body ⟨s, fun _ => none, txs, []⟩
      ⟨t, fun _ => none, txs, [(other, x)]⟩ := .turn (i := 0) rfl (engine_exec ▸ hr)
  have hback : Step engine WalletJob.body ⟨t, fun _ => none, txs, [(other, x)]⟩
      ⟨t, release (fun _ => none) 1, Function.update txs 1 none, [(other, x)]⟩ := .rollback
  have hnone : Function.update txs 1 none = fun _ => none := by simp [txs]
  rw [hnone] at hback
  exact ⟨_, hbegun.trans hcommitted, rfl, ⟨_, rfl⟩, .single hback⟩

theorem updatePoint_run (wallet : WalletModel) {s : Store} {row : WalletRow}
    (hs : s.db.wallet wallet.id = some row) (hversion : row.version = wallet.version) :
    ∃ updated t, Effect.Runs Store.exec (WalletRepository.updatePoint wallet) s (.success updated) t ∧
      updated.id = wallet.id := by
  let new : WalletRow := { row with version := row.version + 1, totalPoint := wallet.totalPoint }
  have hvalid : WalletRepository.validateVersion wallet.version (wallet.id, new) = .succeed (wallet.id, new) :=
    if_pos (congrArg (· + 1) hversion)
  have hupdated : Store.exec (.updateWallet wallet.id (some wallet.version) wallet.totalPoint) s
      (some (wallet.id, new)) _ :=
    answering_exec _ _ _ ⟨rfl, row, hs, fun _ hv => hversion.trans (Option.some.inj hv), rfl⟩
  have hanswered : Effect.Runs Store.exec
      ((tryPromise (.updateWallet wallet.id (some wallet.version) wallet.totalPoint)).flatMap
        (WalletRepository.validateVersion wallet.version)) s (.success (wallet.id, new)) _ :=
    Effect.runs_flatMap_success.mpr ⟨_, _, runs_tryPromise.mpr hupdated, by
      rw [hvalid]
      exact .succeed _ _⟩
  exact ⟨_, _, (Effect.runs_catchAll_success (fun _ => ⟨_, rfl⟩)).mpr
    (Effect.runs_map_success.mpr ⟨_, hanswered, rfl⟩), rfl⟩

theorem charge_run {s : Store} {version : ℕ} {totalPoint : ℚ}
    (hs : s.db.wallet 1 = some ⟨7, version, totalPoint⟩) :
    ∃ t, Effect.Runs Store.exec (WalletJob.chargePoint 7 5).body s (.success 1) t := by
  let wallet : WalletModel := ⟨1, 7, totalPoint, version⟩
  obtain ⟨updated, t, hupdate, hid⟩ := updatePoint_run (s := s) (wallet.charge 5) hs rfl
  have hfound : Store.exec (.findUniqueOrThrowWallet 7) s (some (1, ⟨7, version, totalPoint⟩)) s :=
    ⟨⟨hs, rfl⟩, (Store.after_read rfl rfl).symm⟩
  have hread : Effect.Runs Store.exec (WalletRepository.getByUserId 7) s (.success wallet) s :=
    (Effect.runs_catchAll_success (fun _ => ⟨_, rfl⟩)).mpr
      (Effect.runs_map_success.mpr ⟨_, runs_tryPromise.mpr hfound, rfl⟩)
  have hcreated : Effect.Runs Store.exec (PointRepository.create ⟨updated.id, 5, .charge⟩) t
      (.success ⟨updated.id, 5, .charge⟩) _ :=
    runs_tryPromise.mpr (answering_exec (.createPoint _) _ _ rfl)
  have hcharging : Effect.Runs Store.exec (PointService.charging 7 5) s _ _ :=
    Effect.runs_flatMap_success.mpr ⟨updated, t, Effect.runs_flatMap_success.mpr ⟨wallet.charge 5, s,
      Effect.runs_map_success.mpr ⟨wallet, hread, rfl⟩, hupdate⟩, hcreated⟩
  exact ⟨_, Effect.runs_map_success.mpr ⟨_, runs_effectWithTransaction.mpr hcharging, hid.symm⟩⟩

theorem payment_run : ∃ t totalPoint,
    Effect.Runs Store.exec (WalletJob.completePayment 7 6).body purse (.success 1) t ∧
      t.db.wallet 1 = some ⟨7, 1, totalPoint⟩ := by
  let read := purse.after (.findUniqueOrThrowWallet 7) (1, ⟨7, 0, 10⟩)
  let created := read.after (.createPoint ⟨1, -6, .use⟩) ⟨1, -6, .use⟩
  refine ⟨created.after (.updateWallet 1 (some 0) (10 - 6)) (1, ⟨7, 1, 10 - 6⟩), 10 - 6,
    query_then answering_exec (1, ⟨7, 0, 10⟩) ⟨rfl, rfl⟩ ?_, rfl⟩
  exact query_then answering_exec (q := .createPoint ⟨1, -6, .use⟩) _ rfl
    (query_then answering_exec (1, ⟨7, 1, 10 - 6⟩)
      ⟨rfl, ⟨7, 0, 10⟩, rfl, fun _ => Option.some.inj, rfl⟩ (.succeed _ _))

/-- The points are charged while a payment is made, and once more after that has come to nothing. -/
theorem wallet_agrees_with_points_charge : ∃ (between st : WalletState) (row : WalletRow),
    Reaches engine WalletJob.body (idle purse) between ∧ between.log = [(.completePayment 7 6, 1)] ∧
    (∃ rest, between.txs 1 =
      some ⟨.chargePoint 7 5, rest, [⟨.findUniqueOrThrowWallet 7, some (1, ⟨7, 0, 10⟩)⟩]⟩) ∧
    Reaches engine WalletJob.body between st ∧
    st.log = [(.completePayment 7 6, 1), (.chargePoint 7 5, 1)] ∧
    st.committed.db.wallet 1 = some row ∧ row.totalPoint = 9 ∧ row.version = 2 := by
  obtain ⟨t, totalPoint, hpay, hleft⟩ := payment_run
  obtain ⟨u, hcharge⟩ := charge_run hleft
  obtain ⟨between, hbetween, hlog, hopen, hback⟩ :=
    overtaken (.chargePoint 7 5) 1 ⟨7, 0, 10⟩ rfl rfl hpay
  have hlater := hback.trans (Reaches.turn (i := 1) rfl (engine_exec ▸ hcharge))
  obtain ⟨⟨written, _, rfl, hwallet⟩, _⟩ := wallet_agrees_with_points (hbetween.trans hlater)
  obtain ⟨row, hrow, htotal, hversion⟩ := hwallet 1 ⟨7, 0, 10⟩ rfl
  refine ⟨between, _, row, hbetween, hlog, hopen, hlater, rfl, hrow, ?_, hversion⟩
  rw [htotal]
  norm_num [amountOf, pointOf, WalletJob.amount]

def WalletJob.Requested : WalletJob → Prop
  | chargePoint _ amount => 1 ≤ amount
  | completePayment _ amount => 0 ≤ amount
  | processOrderPayment orderInfo => 0 ≤ orderInfo.totalAmount

def Solvent (s : Store) : Prop := ∀ id row, s.db.wallet id = some row → 0 ≤ row.totalPoint

theorem Solvent.step {s t : Store} {job : WalletJob} {x : ℕ} (h : Solvent s) (hjob : job.Requested)
    (hr : Effect.Runs Store.exec job.body s (.success x) t) : Solvent t := by
  obtain ⟨read, hread, _, ⟨old, hold, _, hwallet⟩, _, hcovered⟩ := job_booked hr
  intro id row hrow
  rw [hwallet] at hrow
  by_cases hid : id = x
  · subst hid
    simp only [Function.update_self, Option.some.injEq] at hrow
    subst hrow
    obtain ⟨userId, amount, rfl⟩ | hle := hcovered
    · have hamount : (1 : ℚ) ≤ amount := hjob
      have hread := h _ _ hread
      simp only [WalletJob.amount]
      linarith
    · exact hle
  · rw [Function.update_of_ne hid] at hrow
    exact h id row hrow

/-- No wallet is overdrawn, whatever the interleaving. -/
theorem never_overdrawn {s : Store} {st : WalletState}
    (h : Reaches engine WalletJob.body (idle s) st)
    (hjobs : ∀ e ∈ st.log, e.1.Requested)
    (hs : ∀ id row, s.db.wallet id = some row → 0 ≤ row.totalPoint) :
    ∀ id row, st.committed.db.wallet id = some row → 0 ≤ row.totalPoint := by
  have hserial := Reaches.serial (fun _ h => wallet_fresh h) h
  have hsolvent := hserial.invariant (I := fun t log => (∀ e ∈ log, e.1.Requested) → Solvent t)
    (fun _ => hs) (fun _ _ log job x hi hr hlog => Solvent.step
      (hi (fun e he => hlog e (List.mem_append_left _ he)))
      (hlog (job, x) (List.mem_append_right _ List.mem_cons_self)) (engine_exec ▸ hr))
  exact hsolvent hjobs

/-- Two payments read the same ten points, and one of them is made. -/
theorem never_overdrawn_payment : ∃ between st : WalletState,
    Reaches engine WalletJob.body (idle purse) between ∧ between.log = [(.completePayment 7 6, 1)] ∧
    (∃ rest, between.txs 1 =
      some ⟨.completePayment 7 6, rest, [⟨.findUniqueOrThrowWallet 7, some (1, ⟨7, 0, 10⟩)⟩]⟩) ∧
    Reaches engine WalletJob.body between st ∧ st.txs = (fun _ => none) ∧
    ∀ id row, st.committed.db.wallet id = some row → 0 ≤ row.totalPoint := by
  obtain ⟨t, _, hpay, _⟩ := payment_run
  obtain ⟨between, hbetween, hlog, hopen, hback⟩ :=
    overtaken (.completePayment 7 6) 1 ⟨7, 0, 10⟩ rfl rfl hpay
  refine ⟨between, _, hbetween, hlog, hopen, hback, rfl,
    never_overdrawn (hbetween.trans hback) (fun e he => ?_) (fun id row hrow => ?_)⟩
  · obtain rfl := List.mem_singleton.mp he
    exact (by norm_num : (0 : ℚ) ≤ 6)
  · simp only [purse] at hrow
    split at hrow
    · cases hrow
      norm_num
    · cases hrow

end Ledger

end EcommerceService.WalletLedger
