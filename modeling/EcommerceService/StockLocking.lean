import Mathlib.Algebra.Order.BigOperators.Group.List
import EcommerceService.RowLocks
import EcommerceService.StockEffects

namespace EcommerceService.StockLocking

open EcommerceService.Effects EcommerceService.Errors EcommerceService.Models
open EcommerceService.Database EcommerceService.Repositories EcommerceService.Backend
open EcommerceService.Services EcommerceService.OutboxPolling EcommerceService.TransactionEffects
open EcommerceService.StockEffects EcommerceService.Transactions EcommerceService.RowLocks

/-- A transaction on the stocks, of positive quantities of distinct products. -/
inductive StockJob where
  | deduction (command : DeductStockCommand) (positive : ∀ e ∈ command.orderItems, 0 < e.2)
  | restoration (payload : CreateOrderInfo) (positive : ∀ item ∈ payload.orderItems, 0 < item.quantity)
      (distinct : (payload.orderItems.map (·.productId)).Nodup)

def quantityOf (p : ℕ) (items : List (ℕ × ℤ)) : ℤ :=
  ((items.filter (fun e => e.1 = p)).map Prod.snd).sum

namespace StockJob

def body : StockJob → Statements Unit
  | deduction command _ => PrismaService.effectWithTransaction (ProductService.deductStock command)
  | restoration payload _ _ => PrismaService.effectWithTransaction (restoring payload)

def deducts (p : ℕ) : StockJob → ℤ
  | deduction command _ => quantityOf p command.orderItems
  | restoration _ _ _ => 0

def restores (p : ℕ) : StockJob → ℤ
  | deduction _ _ => 0
  | restoration payload _ _ =>
      quantityOf p (payload.orderItems.map (fun item => (item.productId, item.quantity)))

end StockJob

abbrev StockState : Type := State ℕ StockJob Query Query.Answer Store Row Error Unit

def deductedOf (p : ℕ) (log : List (StockJob × Unit)) : ℤ := (log.map (fun e => e.1.deducts p)).sum

def restoredOf (p : ℕ) (log : List (StockJob × Unit)) : ℤ := (log.map (fun e => e.1.restores p)).sum

section Quantities

theorem quantityOf_none {p : ℕ} {items : List (ℕ × ℤ)} (hp : p ∉ items.map Prod.fst) :
    quantityOf p items = 0 := by
  have hnil : items.filter (fun e => e.1 = p) = [] := by
    refine List.filter_eq_nil_iff.mpr (fun e he => ?_)
    simp only [decide_eq_true_eq]
    rintro rfl
    exact hp (List.mem_map_of_mem he)
  simp [quantityOf, hnil]

theorem quantityOf_lookup {p : ℕ} {items : List (ℕ × ℤ)} (hn : (items.map Prod.fst).Nodup) :
    quantityOf p items = (items.lookup p).getD 0 := by
  induction items with
  | nil => rfl
  | cons e items ih =>
    obtain ⟨k, q⟩ := e
    obtain ⟨hk, hn⟩ := List.nodup_cons.mp hn
    by_cases hp : k = p
    · subst hp
      have hrest : quantityOf k items = 0 := quantityOf_none hk
      simp only [quantityOf] at hrest
      simp [quantityOf, hrest]
    · have hp' : (p == k) = false := by simpa using Ne.symm hp
      have hrest := ih hn
      simp only [quantityOf] at hrest
      simp [quantityOf, List.lookup_cons, hp, hp', hrest]

theorem deducted_quantity (command : DeductStockCommand) (p : ℕ) :
    quantityOf p command.orderItems = (command.quantity p).getD 0 :=
  quantityOf_lookup (command.ascending.imp (fun h => Nat.ne_of_lt h))

theorem restored_quantity {payload : CreateOrderInfo} (p : ℕ)
    (hn : (payload.orderItems.map (·.productId)).Nodup) :
    quantityOf p (payload.orderItems.map (fun item => (item.productId, item.quantity))) =
      restoredQuantity payload p := by
  have hkeys : ((payload.orderItems.map (fun item => (item.productId, item.quantity))).map
      Prod.fst).Nodup := by simpa [Function.comp_def] using hn
  rw [quantityOf_lookup hkeys, lookup_items, restoredQuantity]

theorem quantityOf_nonneg {p : ℕ} {items : List (ℕ × ℤ)} (h : ∀ e ∈ items, 0 < e.2) :
    0 ≤ quantityOf p items := by
  refine List.sum_nonneg (fun q hq => ?_)
  obtain ⟨e, he, rfl⟩ := List.mem_map.mp hq
  exact (h e (List.mem_filter.mp he).1).le

end Quantities

section Alone

variable {job : StockJob} {s t : Store} {a : Unit}

/-- A transaction alone on the database moves the stock of each product by its quantity. -/
theorem job_stock (h : Effect.Runs Store.exec job.body s (.success a) t) (p : ℕ) :
    t.db.productStock p = (s.db.productStock p).map (fun n => n - job.deducts p + job.restores p) := by
  cases job with
  | deduction command positive =>
    rw [deduction_stock (runs_effectWithTransaction.mp h) p]
    simp [StockJob.deducts, StockJob.restores, deducted_quantity]
  | restoration payload positive distinct =>
    rw [restoration_stock (runs_effectWithTransaction.mp h) p]
    simp [StockJob.deducts, StockJob.restores, restored_quantity p distinct]

theorem job_enough (h : Effect.Runs Store.exec job.body s (.success a) t) {p : ℕ} {n : ℤ}
    (hn : s.db.productStock p = some n) (hnonneg : 0 ≤ n) :
    0 ≤ n - job.deducts p + job.restores p := by
  cases job with
  | deduction command positive =>
    rw [StockJob.deducts, StockJob.restores, deducted_quantity]
    cases hq : command.quantity p with
    | none => simpa using hnonneg
    | some q =>
      have hle := deduction_enough (runs_effectWithTransaction.mp h) hn hq
      simp only [Option.getD_some]
      omega
  | restoration payload positive distinct =>
    have hq : 0 ≤ quantityOf p
        (payload.orderItems.map (fun item => (item.productId, item.quantity))) := by
      refine quantityOf_nonneg (fun e he => ?_)
      obtain ⟨item, hitem, rfl⟩ := List.mem_map.mp he
      exact positive item hitem
    simp only [StockJob.deducts, StockJob.restores]
    omega

theorem body_guarded (job : StockJob) :
    Effect.Confined Effect.anyAnswer engine.guarded (fun _ => True) job.body := by
  have hstock : ∀ q, onStock q → engine.guarded q := by
    intro q hq
    cases q with
    | selectStocksForUpdate _ => trivial
    | updateManyStock _ _ => trivial
    | _ => exact hq.elim
  cases job with
  | deduction command positive =>
    have hconflict : ∀ e : Error, e.isConflict = true → Conflicting e := fun _ => .inl
    have h := (deductStock_confined command).mono (fun _ h => h) hconflict
    exact (effectWithTransaction_confined h).mono hstock (fun _ _ => trivial)
  | restoration payload positive distinct =>
    exact (effectWithTransaction_confined (restoring_confined payload)).mono hstock
      (fun _ _ => trivial)

end Alone

/-- What the committed transactions, one after the other, keep of the initial stocks `s`. -/
def Conserved (s t : Store) (log : List (StockJob × Unit)) : Prop :=
  ((∀ p n, s.db.productStock p = some n → 0 ≤ n) → ∀ p n, t.db.productStock p = some n → 0 ≤ n) ∧
  ∀ p n₀, s.db.productStock p = some n₀ →
    ∃ n, t.db.productStock p = some n ∧ n₀ = n + deductedOf p log - restoredOf p log

theorem Conserved.initial (s : Store) : Conserved s s [] :=
  ⟨fun h => h, fun p n₀ hn => ⟨n₀, hn, by simp [deductedOf, restoredOf]⟩⟩

theorem Conserved.step {s t u : Store} {log : List (StockJob × Unit)} {job : StockJob} {a : Unit}
    (h : Conserved s t log) (hr : Effect.Runs Store.exec job.body t (.success a) u) :
    Conserved s u (log ++ [(job, a)]) := by
  obtain ⟨hnonneg, hsum⟩ := h
  refine ⟨fun hs p n hn => ?_, fun p n₀ hn₀ => ?_⟩
  · rw [job_stock hr p] at hn
    obtain ⟨m, hm, rfl⟩ := Option.map_eq_some_iff.mp hn
    exact job_enough hr hm (hnonneg hs p m hm)
  · obtain ⟨m, hm, hsum⟩ := hsum p n₀ hn₀
    refine ⟨m - job.deducts p + job.restores p, by rw [job_stock hr p, hm]; rfl, ?_⟩
    simp only [deductedOf, restoredOf, List.map_append, List.sum_append, List.map_cons, List.map_nil,
      List.sum_cons, List.sum_nil] at hsum ⊢
    omega

/-- No interleaving of deductions and restorations oversells or loses stock. -/
theorem stock_conserved {s : Store} {st : StockState}
    (h : Reaches engine StockJob.body (idle s) st) :
    ((∀ p n, s.db.productStock p = some n → 0 ≤ n) →
      ∀ p n, st.committed.db.productStock p = some n → 0 ≤ n) ∧
    ∀ p n₀, s.db.productStock p = some n₀ → ∃ n, st.committed.db.productStock p = some n ∧
      n₀ = n + deductedOf p st.log - restoredOf p st.log := by
  have hserial := Reaches.serial (fun _ h => fresh_of_guarded body_guarded h) h
  have hcons := hserial.invariant (I := Conserved s) (.initial s)
    (fun _ _ _ _ _ hc hr => hc.step (engine_exec ▸ hr))
  exact hcons

def shelf (n : ℤ) : Tables :=
  ⟨fun _ => none, [], fun p => if p = 1 then some n else none, fun _ => none, [], fun _ => none⟩

theorem shelf_nonneg {n : ℤ} (hn : 0 ≤ n) (p : ℕ) (m : ℤ) (h : (shelf n).productStock p = some m) : 0 ≤ m := by
  obtain ⟨_, hm⟩ := Option.ite_none_right_eq_some.mp h
  exact Option.some.inj hm ▸ hn

theorem sells {s : Store} {n q : ℤ} (hs : s.db.productStock = (shelf n).productStock) (hle : q ≤ n) :
    ∃ t, Effect.Runs Store.exec (ProductService.deductStock (.ofEntries [(1, q)])) s (.success ()) t ∧
      t.db.productStock = (shelf (n - q)).productStock := by
  have hrows : (Query.selectStocksForUpdate (DeductStockCommand.ofEntries [(1, q)]).productIds).Allows
      s.db [⟨1, n⟩] := by
    refine ⟨List.cons_ne_nil 1 [], List.nodup_singleton _, fun row => ?_⟩
    obtain ⟨p, m⟩ := row
    rw [hs]
    by_cases hp : p = 1
    · subst hp
      simp [shelf, DeductStockCommand.ofEntries, DeductStockCommand.productIds, fromEntries, assign,
        eq_comm]
    · simp [hp, shelf]
  have hcovers : ∀ row ∈ [(⟨1, n⟩ : ProductStockModel)], Covers (.ofEntries [(1, q)]) row := by
    simpa using ⟨q, rfl, hle⟩
  have hrun := deductStock_run answering_exec hrows hcovers
  refine ⟨_, hrun, funext fun p => ?_⟩
  rw [deduction_stock hrun p, hs]
  by_cases hp : p = 1
  · subst hp
    rfl
  · simp [shelf, hp]

def sale : StockJob := .deduction (.ofEntries [(1, 3)]) (by decide)

def rival : StockJob := .deduction (.ofEntries [(1, 4)]) (by decide)

/-- The rival begins while the sale holds the row that both of them take from. -/
theorem stock_conserved_sale : ∃ between st : StockState,
    Reaches engine StockJob.body (idle ⟨shelf 10, []⟩) between ∧
    between.held (.productStock 1) = some 0 ∧ between.txs 1 = some ⟨rival, rival.body, []⟩ ∧
    Reaches engine StockJob.body between st ∧ st.log = [(sale, ()), (rival, ())] ∧
    (∀ p n, st.committed.db.productStock p = some n → 0 ≤ n) ∧
    ∃ n, st.committed.db.productStock 1 = some n ∧
      10 = n + deductedOf 1 st.log - restoredOf 1 st.log := by
  obtain ⟨t, hsale, ht⟩ := sells (s := ⟨shelf 10, []⟩) (n := 10) (q := 3) rfl (by decide)
  obtain ⟨u, hrival, _⟩ := sells (q := 4) ht (by decide)
  obtain ⟨k, hbody, e, hnone⟩ : ∃ k, sale.body = .perform (.selectStocksForUpdate [1]) k ∧
      ∃ e, k none = .fail e := ⟨_, rfl, _, rfl⟩
  have hrun : Effect.Runs engine.exec sale.body ⟨shelf 10, []⟩ (.success ()) t :=
    engine_exec ▸ runs_effectWithTransaction.mpr hsale
  have hrun' : Effect.Runs engine.exec rival.body t (.success ()) u :=
    engine_exec ▸ runs_effectWithTransaction.mpr hrival
  rw [hbody] at hrun
  obtain ⟨r, w, hread, hrest⟩ := Effect.runs_perform.mp hrun
  cases r with
  | none => cases (Effect.runs_fail.mp (hnone ▸ hrest)).1
  | some rows =>
    have hmem : (⟨1, 10⟩ : ProductStockModel) ∈ rows :=
      (hread.1.2.2 _).mpr ⟨List.mem_singleton_self 1, rfl⟩
    let between : StockState := ⟨⟨shelf 10, []⟩, grab (fun _ => none) 0 (engine.locks _ rows),
      Function.update (Function.update (fun _ => none) 0 (some ⟨sale, k (some rows), [⟨_, some rows⟩]⟩)) 1
        (some ⟨rival, rival.body, []⟩), []⟩
    have hbetween : Reaches engine StockJob.body (idle ⟨shelf 10, []⟩) between :=
      (Reaches.begun rfl hbody hread).tail (.start rival rfl)
    have hsold : Reaches engine StockJob.body between
        ⟨t, fun _ => none, Function.update between.txs 0 none, [(sale, ())]⟩ :=
      .undisturbed rfl hrest (grab_free _ (fun _ => .inl rfl)) (.first hread)
    have hboth : Reaches engine StockJob.body ⟨t, fun _ => none, Function.update between.txs 0 none, [(sale, ())]⟩
        ⟨u, fun _ => none, Function.update (Function.update between.txs 0 none) 1 none,
          [(sale, ()), (rival, ())]⟩ :=
      .undisturbed (p := rival.body) (h := []) rfl hrun' (fun _ => .inl rfl) rfl
    have hrow : Row.productStock 1 ∈ engine.locks (.selectStocksForUpdate [1]) rows :=
      List.mem_map.mpr ⟨_, hmem, rfl⟩
    have hheld : between.held (.productStock 1) = some 0 := if_pos hrow
    have hlater := hsold.trans hboth
    obtain ⟨hnonneg, hsum⟩ := stock_conserved (hbetween.trans hlater)
    exact ⟨between, _, hbetween, hheld, rfl, hlater, rfl,
      hnonneg (shelf_nonneg (by decide)), hsum 1 10 rfl⟩

end EcommerceService.StockLocking
