import EcommerceService.SagaSafety
import EcommerceService.SagaRuns

namespace EcommerceService.SagaOutcomes

open EcommerceService.Models EcommerceService.Database EcommerceService.Pool
open EcommerceService.OrderLife EcommerceService.Saga EcommerceService.SagaInvariant
open EcommerceService.SagaSafety EcommerceService.SagaRuns

theorem lifeEvent_deduct {o : ℕ} {e : Event} :
    lifeEvent o e = some .deduct ↔ e = .committed (.deductStock o) := by
  unfold lifeEvent
  split <;> (try split_ifs) <;> simp_all

theorem lifeEvent_debit {o : ℕ} {e : Event} :
    lifeEvent o e = some .debit ↔ e = .committed (.payment o) := by
  unfold lifeEvent
  split <;> (try split_ifs) <;> simp_all

theorem lifeEvent_restore {o : ℕ} {e : Event} :
    lifeEvent o e = some .restore ↔ e = .committed (.restoreStock o) := by
  unfold lifeEvent
  split <;> (try split_ifs) <;> simp_all

theorem mem_life {o : ℕ} {journal : List Event} {e : Event} {x : LifeEvent}
    (h : ∀ e', lifeEvent o e' = some x ↔ e' = e) : x ∈ life o journal ↔ e ∈ journal := by
  simp [life, List.mem_filterMap, h]

theorem count_life {o : ℕ} {journal : List Event} {e : Event} {x : LifeEvent}
    (h : ∀ e', lifeEvent o e' = some x ↔ e' = e) :
    (life o journal).count x = journal.count e := by
  rw [life, List.count_filterMap, List.count]
  refine List.countP_congr (fun e' _ => ?_)
  simp [h]

section Stages

variable {s : Store} {o : ℕ} {ph : Phase} (h : Life s o ph)
include h

theorem deducted_iff : .committed (.deductStock o) ∈ s.journal ↔ .deducted ≤ ph := by
  rw [← mem_life (fun _ => lifeEvent_deduct)]
  exact deduct_gate.mem_iff (by decide) h.accepted

theorem debited_iff : .committed (.payment o) ∈ s.journal ↔ .debited ≤ ph := by
  rw [← mem_life (fun _ => lifeEvent_debit)]
  exact debit_gate.mem_iff (by decide) h.accepted

theorem restored_stage (hr : .committed (.restoreStock o) ∈ s.journal) : .unpaid ≤ ph := by
  obtain ⟨u, v, hlife⟩ := List.append_of_mem ((mem_life (fun _ => lifeEvent_restore)).mpr hr)
  have hrun := h.accepted
  rw [hlife] at hrun
  obtain ⟨p, _, hv⟩ := Monitor.run_append_some hrun
  obtain ⟨q, hq, hw⟩ := Monitor.run_cons_some hv
  obtain rfl := restore_stage hq
  exact (next_rises _ _ _ hq).trans (next_rises.run hw)

theorem deducted_first {u v : List Event} (hj : s.journal = u ++ .committed (.payment o) :: v) :
    .committed (.deductStock o) ∈ u := by
  have hrun := h.accepted
  have hdebit : lifeEvent o (.committed (.payment o)) = some .debit := by simp [lifeEvent]
  rw [hj, life, List.filterMap_append, List.filterMap_cons_some hdebit] at hrun
  have hu := debit_gate.before hrun
  have hdeduct : .deduct ∈ life o u := (deduct_gate.mem_iff (by decide) hu).mpr (by decide)
  exact (mem_life (fun _ => lifeEvent_deduct)).mp hdeduct

end Stages

theorem stage {ok : Configuration → Action → Prop} {c : Configuration} (h : Reachable ok c) (o : ℕ) :
    ∃ ph, Life c.shared.store o ph := (reachable_consistent h).lives.stage o

theorem Reachable.extend {c c' : Configuration} (h : Reachable anyStep c)
    (hc : Reaches saga anyStep c c') : Reachable anyStep c' := by
  obtain ⟨w, hw, hr⟩ := h
  exact ⟨w, hw, hr.trans hc⟩

/-- The stage of an order only rises. -/
theorem stage_rises {c c' : Configuration} (h : Reachable anyStep c)
    (hc : Reaches saga anyStep c c') (o : ℕ) :
    ∃ ph ph', Life c.shared.store o ph ∧ Life c'.shared.store o ph' ∧ ph ≤ ph' := by
  obtain ⟨ph, hph⟩ := stage h o
  obtain ⟨ph', hph'⟩ := stage (Reachable.extend h hc) o
  obtain ⟨w, hw⟩ := reaches_journal hc
  have hrun := hph'.accepted
  rw [← hw, life_append] at hrun
  obtain ⟨q, hq, hrise⟩ := Monitor.run_append_some hrun
  cases hph.accepted.symm.trans hq
  exact ⟨ph, ph', hph, hph', next_rises.run hrise⟩

/-- Whatever is delivered, retried, lost or run at the same time, the stock of an order
is deducted at most once, and its `ORDER_DEDUCT_STOCK` row tells whether it was. -/
theorem deductStock_at_most_once {c : Configuration} (h : Reachable anyStep c) (o : ℕ) :
    c.shared.store.journal.count (.committed (.deductStock o)) ≤ 1 ∧
    (.committed (.deductStock o) ∈ c.shared.store.journal ↔
      (∃ row, c.shared.store.db.outboxEvent (aggregateId o, .orderDeductStock) = some row) ∧
      .created (aggregateId o, .orderDeductStock) .init ∈ c.shared.store.journal) := by
  obtain ⟨ph, hph⟩ := stage h o
  refine ⟨?_, ?_⟩
  · rw [← count_life (fun _ => lifeEvent_deduct)]
    exact deduct_gate.count_le_one hph.accepted
  · rw [deducted_iff hph, hph.recorded]
    have hcreated : .deducted ≤ ph ↔ ph.createdAs .orderDeductStock = some .init := by
      cases ph <;> decide
    rw [hcreated]
    refine ⟨fun hinit => ⟨?_, hinit⟩, And.right⟩
    by_contra hrow
    have hnone := hph.absent .orderDeductStock
      (Option.eq_none_iff_forall_ne_some.mpr (fun row hr => hrow ⟨row, hr⟩))
    simp [hinit] at hnone

theorem deductStock_at_most_once_taken : ∃ c : Configuration, Reachable anyStep c ∧
    .committed (.deductStock 1) ∈ c.shared.store.journal ∧
    c.shared.store.journal.count (.committed (.deductStock 1)) ≤ 1 ∧
    .created (aggregateId 1, .orderDeductStock) .init ∈ c.shared.store.journal := by
  obtain ⟨w, hshows, _, _, hstaged⟩ := 
    (Purchase.staged_taken (tea_covered 10)).reached (tea 10).initial
  have hreach := hstaged _ permits_anyStep
  have hmem : .committed (.deductStock 1) ∈ w.store.journal := by
    rw [hshows.journal]
    exact List.mem_append_right _ List.mem_cons_self
  obtain ⟨hcount, hiff⟩ := deductStock_at_most_once hreach 1
  exact ⟨_, hreach, hmem, hcount, (hiff.mp hmem).2⟩

def orderStatus (c : Configuration) (o : ℕ) : Option OrderStatus :=
  (c.shared.store.db.order o).map (·.status)

/-- The outcomes of the saga exclude one another, now and in every state to come. -/
theorem outcomes_exclusive {c : Configuration} (h : Reachable anyStep c) (o : ℕ) :
    (∀ u v, c.shared.store.journal = u ++ .committed (.payment o) :: v →
      .committed (.deductStock o) ∈ u) ∧
    (.committed (.payment o) ∈ c.shared.store.journal → ∀ c', Reaches saga anyStep c c' →
      .committed (.restoreStock o) ∉ c'.shared.store.journal) ∧
    (orderStatus c o = some .paid → .committed (.payment o) ∈ c.shared.store.journal) ∧
    (orderStatus c o = some .failed → ∀ c', Reaches saga anyStep c c' →
      .committed (.payment o) ∉ c'.shared.store.journal) ∧
    (orderStatus c o = some .paid → ∀ c', Reaches saga anyStep c c' →
      orderStatus c' o ≠ some .failed) ∧
    (orderStatus c o = some .failed → ∀ c', Reaches saga anyStep c c' →
      orderStatus c' o ≠ some .paid) := by
  refine ⟨fun u v hj => ?_, fun hpay c' hc hrestore => ?_, fun hpaid => ?_,
    fun hfailed c' hc hpay => ?_, fun hpaid c' hc hfailed => ?_, fun hfailed c' hc hpaid => ?_⟩
  · obtain ⟨ph, hph⟩ := stage h o
    exact deducted_first hph hj
  · obtain ⟨ph, ph', hph, hph', hle⟩ := stage_rises h hc o
    exact not_debited_and_unpaid (((debited_iff hph).mp hpay).trans hle) (restored_stage hph' hrestore)
  · obtain ⟨ph, hph⟩ := stage h o
    obtain rfl := paid_of (hph.status.symm.trans hpaid)
    exact (debited_iff hph).mpr (by decide)
  · obtain ⟨ph, ph', hph, hph', hle⟩ := stage_rises h hc o
    obtain rfl := cancelled_of (hph.status.symm.trans hfailed)
    exact not_cancelled_and_debited hle ((debited_iff hph').mp hpay)
  · obtain ⟨ph, ph', hph, hph', hle⟩ := stage_rises h hc o
    obtain rfl := paid_of (hph.status.symm.trans hpaid)
    obtain rfl := cancelled_of (hph'.status.symm.trans hfailed)
    exact absurd hle (by decide)
  · obtain ⟨ph, ph', hph, hph', hle⟩ := stage_rises h hc o
    obtain rfl := cancelled_of (hph.status.symm.trans hfailed)
    obtain rfl := paid_of (hph'.status.symm.trans hpaid)
    exact absurd hle (by decide)

theorem outcomes_exclusive_closed : ∃ c : Configuration, Reachable anyStep c ∧
    orderStatus c 1 = some .paid ∧ .committed (.payment 1) ∈ c.shared.store.journal ∧
    ∀ c', Reaches saga anyStep c c' → orderStatus c' 1 ≠ some .failed ∧
      .committed (.restoreStock 1) ∉ c'.shared.store.journal := by
  obtain ⟨w, hshows, _, _, hstaged⟩ := 
    (Purchase.staged_closed (tea_covered 10) tea_enough).reached (tea 10).initial
  have hreach := hstaged _ permits_anyStep
  have hpaid : orderStatus (quiet w) 1 = some .paid := by
    have horder : w.store.db.order 1 = some ⟨7, .paid⟩ := hshows.order
    show (w.store.db.order 1).map (·.status) = some .paid
    rw [horder]
    rfl
  obtain ⟨_, hrestore, hdebited, _, hfailed, _⟩ := outcomes_exclusive hreach 1
  exact ⟨_, hreach, hpaid, hdebited hpaid, fun c' hc => ⟨hfailed hpaid c' hc,
    hrestore (hdebited hpaid) c' hc⟩⟩

/-- An order whose payment was recorded as failed stays `PENDING_PAYMENT`, whatever
`executeCompensation` does for it. -/
theorem unpaid_never_closed {c : Configuration} (h : Reachable anyStep c) {o : ℕ}
    (hfail : .created (aggregateId o, .orderPayment) .fail ∈ c.shared.store.journal) :
    orderStatus c o = some .pendingPayment ∧ orderStatus c o ≠ some .failed := by
  obtain ⟨ph, hph⟩ := stage h o
  obtain rfl := unpaid_of ((hph.recorded _ _).mp hfail)
  have hstatus : orderStatus c o = some .pendingPayment := hph.status
  exact ⟨hstatus, by simp [hstatus]⟩

/-- The payment of order 1 has failed, its stock has been given back, and its row says
that the compensation is done. -/
theorem compensated_run : ∃ w, Reachable anyStep (quiet w) ∧
    .created (aggregateId 1, .orderPayment) .fail ∈ w.store.journal ∧
    .updated (aggregateId 1, .orderPayment) .fail .success ∈ w.store.journal ∧
    w.store.db.order 1 = some ⟨7, .pendingPayment⟩ := by
  obtain ⟨w, hshows, _, _, hstaged⟩ := 
    (Purchase.staged_compensated (tea_covered 0) tea_dear).reached (tea 0).initial
  have hreach := hstaged _ permits_anyStep
  have hcreated : .created (aggregateId 1, .orderPayment) .fail ∈ (tea 0).unpaid.journal :=
    List.mem_append_right _ List.mem_cons_self
  refine ⟨w, hreach, ?_, ?_, hshows.order⟩
  · rw [hshows.journal]
    exact List.mem_append_left _ (List.mem_append_left _ hcreated)
  · rw [hshows.journal]
    exact List.mem_append_right _ List.mem_cons_self

theorem unpaid_never_closed_compensated : ∃ c : Configuration, Reachable anyStep c ∧
    .created (aggregateId 1, .orderPayment) .fail ∈ c.shared.store.journal ∧
    orderStatus c 1 = some .pendingPayment ∧ orderStatus c 1 ≠ some .failed := by
  obtain ⟨w, hreach, hfail, _, _⟩ := compensated_run
  exact ⟨_, hreach, hfail, unpaid_never_closed hreach hfail⟩

theorem compensated_left_open : ¬ ∀ (c : Configuration) (o : ℕ), Reachable anyStep c →
    .created (aggregateId o, .orderPayment) .fail ∈ c.shared.store.journal →
    .updated (aggregateId o, .orderPayment) .fail .success ∈ c.shared.store.journal →
    orderStatus c o = some .failed := by
  intro h
  obtain ⟨w, hreach, hfail, hsuccess, horder⟩ := compensated_run
  have hfailed := h (quiet w) 1 hreach hfail hsuccess
  simp [orderStatus, quiet, horder] at hfailed

end EcommerceService.SagaOutcomes
