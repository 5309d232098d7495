import EcommerceService.Deduction

namespace EcommerceService.Reversal

open EcommerceService.Effects EcommerceService.Errors EcommerceService.Models
open EcommerceService.Database EcommerceService.Repositories EcommerceService.Backend
open EcommerceService.Services EcommerceService.Facades EcommerceService.OutboxPolling
open EcommerceService.TransactionEffects EcommerceService.StockEffects EcommerceService.SagaCalls
open EcommerceService.SagaRuns EcommerceService.StockLocking EcommerceService.Restoration
open EcommerceService.Deduction

/-- What happens to the tables while an order waits for its restoration: transactions of
other orders commit, and work that leaves the stock alone. `moved` is what the others have
moved of each product. -/
inductive Others : (ℕ → ℤ) → Store → Store → Prop
  | refl {s : Store} : Others (fun _ => 0) s s
  | deduction {moved : ℕ → ℤ} {s t u : Store} {other : CreateOrderInfo} {a : Unit} :
      Others moved s t →
      Effect.Runs Store.exec (PrismaService.effectWithTransaction (ProductFacade.deducting other)) t
        (.success a) u →
      Others (fun p => moved p - ((ProductFacade.deductStockCommand other).quantity p).getD 0) s u
  | restoration {moved : ℕ → ℤ} {s t u : Store} {other : CreateOrderInfo} {a : Unit} :
      Others moved s t →
      Effect.Runs Store.exec (PrismaService.effectWithTransaction (restoring other)) t
        (.success a) u →
      Others (fun p => moved p + restoredQuantity other p) s u
  | elsewhere {moved : ℕ → ℤ} {s t u : Store} : Others moved s t →
      u.db.productStock = t.db.productStock → Others moved s u

structure Undone (info : CreateOrderInfo) (moved : ℕ → ℤ) (s₀ s₁ s₂ s₃ : Store) : Prop where
  took : ∀ p, s₁.db.productStock p = (s₀.db.productStock p).map (fun n => n - ordered info p)
  gave : ∀ p, s₃.db.productStock p = (s₂.db.productStock p).map (fun n => n + ordered info p)
  other : ∀ p, p ∉ info.orderItems.map (·.productId) → ordered info p = 0
  net : ∀ p, s₃.db.productStock p = (s₀.db.productStock p).map (fun n => n + moved p)
  alone : s₂ = s₁ → s₃.db.productStock = s₀.db.productStock

section Stocks

variable {info info' : CreateOrderInfo} {moved : ℕ → ℤ} {s s₀ s₁ s₂ s₃ t : Store} {a b : Unit}

theorem deducting_stock
    (h : Effect.Runs Store.exec (PrismaService.effectWithTransaction (ProductFacade.deducting info)) s
      (.success a) t) (p : ℕ) :
    t.db.productStock p = (s.db.productStock p).map
      (fun n => n - ((ProductFacade.deductStockCommand info).quantity p).getD 0) := by
  obtain ⟨u, _, hdeduct, hemit⟩ := Effect.runs_tap_success.mp (runs_effectWithTransaction.mp h)
  obtain ⟨row, _, rfl⟩ := runs_createOutboxEvent hemit
  exact deduction_stock hdeduct p

theorem Others.stock (h : Others moved s t) (p : ℕ) :
    t.db.productStock p = (s.db.productStock p).map (fun n => n + moved p) := by
  induction h with
  | refl => simp
  | deduction _ hr ih =>
    rw [deducting_stock hr, ih, Option.map_map]
    refine congrArg (fun f => Option.map f _) (funext (fun n => ?_))
    exact add_sub_assoc n _ _
  | restoration _ hr ih =>
    rw [restoration_stock (runs_effectWithTransaction.mp hr), ih, Option.map_map]
    refine congrArg (fun f => Option.map f _) (funext (fun n => ?_))
    exact add_assoc n _ _
  | elsewhere _ hsame ih => rw [hsame, ih]

theorem taken_ordered (hn : (info.orderItems.map (·.productId)).Nodup) (p : ℕ) :
    ((ProductFacade.deductStockCommand info).quantity p).getD 0 = ordered info p := by
  rw [command_quantity hn, ordered, restored_quantity p hn, restoredQuantity]

/-- A restoration of the stored payload undoes the deduction of the order, whatever other
orders have done to the stock in between. -/
theorem restoration_undoes_deduction (hn : (info.orderItems.map (·.productId)).Nodup)
    (hdeduct : Effect.Runs Store.exec
      (PrismaService.effectWithTransaction (ProductFacade.deducting info)) s₀ (.success a) s₁)
    (hothers : Others moved s₁ s₂)
    (hpayload : rawPayload (Json.order info).stringify.stringify = some (.order info'))
    (hrestore : Effect.Runs Store.exec (PrismaService.effectWithTransaction (restoring info')) s₂
      (.success b) s₃) : Undone info moved s₀ s₁ s₂ s₃ := by
  have hinfo : info' = info :=
    Json.order.inj (Option.some.inj (hpayload.symm.trans (payload_decodes info).2.1))
  have htook : ∀ p, s₁.db.productStock p =
      (s₀.db.productStock p).map (fun n => n - ordered info p) := by
    intro p
    rw [deducting_stock hdeduct, taken_ordered hn]
  have hgave : ∀ p, s₃.db.productStock p =
      (s₂.db.productStock p).map (fun n => n + ordered info p) := by
    intro p
    rw [restoration_stock (runs_effectWithTransaction.mp hrestore), hinfo, ordered,
      restored_quantity p hn]
  refine ⟨htook, hgave, fun p hp => ?_, fun p => ?_, fun hsame => funext (fun p => ?_)⟩
  · exact quantityOf_none (by simpa using hp)
  · rw [hgave, hothers.stock, htook, Option.map_map, Option.map_map]
    refine congrArg (fun f => Option.map f _) (funext (fun n => ?_))
    simp only [Function.comp_apply]
    omega
  · rw [hgave, hsame, htook, Option.map_map]
    cases s₀.db.productStock p with
    | none => rfl
    | some n => simp

end Stocks

theorem restoration_undoes_deduction_again : ∃ s₀ s₁ s₂ s₃ : Store,
    Undone firstOrder (fun p => 0 + restoredQuantity firstOrder p) s₀ s₁ s₂ s₃ := by
  obtain ⟨w, hshows, _⟩ := (tea 10).staged_order
  obtain ⟨t, hdeduct, htaken⟩ := taken_runs hshows (tea 10).info_filled (tea_covered 10) rfl
  obtain ⟨u, hother, hrefilled⟩ := restored_runs htaken (tea 10).info_filled
  obtain ⟨v, hrestore, _⟩ := restored_runs hrefilled (tea 10).info_filled
  exact ⟨_, _, _, _, restoration_undoes_deduction (by decide) (runs_effectWithTransaction.mpr hdeduct)
    (Others.refl.restoration hother) rfl hrestore⟩

end EcommerceService.Reversal
