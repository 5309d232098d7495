import EcommerceService.OrderLife
import EcommerceService.Saga
import EcommerceService.TransactionEffects

namespace EcommerceService.SagaInvariant

open EcommerceService.Effects EcommerceService.Errors EcommerceService.Models
open EcommerceService.Database EcommerceService.Repositories EcommerceService.Backend
open EcommerceService.Services EcommerceService.Facades EcommerceService.OutboxPolling
open EcommerceService.Pool EcommerceService.OrderLife EcommerceService.Saga
open EcommerceService.TransactionEffects

def lifeEvent (o : ℕ) : Event → Option LifeEvent
  | .created key status =>
      if key = (aggregateId o, .orderCreated) then some .place
      else if key = (aggregateId o, .orderDeductStock) ∧ status = .fail then some .reject
      else if key = (aggregateId o, .orderPayment) ∧ status = .fail then some .refuse
      else none
  | .orderSet id .paid => if id = o then some .pay else none
  | .orderSet id .failed => if id = o then some .cancel else none
  | .committed (.deductStock id) => if id = o then some .deduct else none
  | .committed (.payment id) => if id = o then some .debit else none
  | .committed (.restoreStock id) => if id = o then some .restore else none
  | _ => none

/-- The life of the order `o` as the journal tells it. -/
def life (o : ℕ) (journal : List Event) : List LifeEvent := journal.filterMap (lifeEvent o)

def Carries (o : ℕ) (payload : Json) : Prop :=
  ∃ info, payload = (Json.order info).stringify ∧ info.order.id = o

/-- The tables and the journal agree on the order `o`, which is at the stage `ph`. -/
structure Life (s : Store) (o : ℕ) (ph : Phase) : Prop where
  accepted : Monitor.run next .absent (life o s.journal) = some ph
  status : (s.db.order o).map (·.status) = ph.orderStatus
  absent : ∀ ty, s.db.outboxEvent (aggregateId o, ty) = none → ph.createdAs ty = none
  present : ∀ ty row, s.db.outboxEvent (aggregateId o, ty) = some row → Carries o row.payload ∧
    ∃ status, ph.createdAs ty = some status ∧ (row.status = status ∨ row.status = .success)
  recorded : ∀ ty status, .created (aggregateId o, ty) status ∈ s.journal ↔
    ph.createdAs ty = some status

def Silent (o : ℕ) (e : Event) : Prop :=
  lifeEvent o e = none ∧ ∀ ty status, e ≠ .created (aggregateId o, ty) status

theorem life_append {o : ℕ} {journal w : List Event} :
    life o (journal ++ w) = life o journal ++ life o w := List.filterMap_append

theorem life_silent {o : ℕ} {w : List Event} (h : ∀ e ∈ w, Silent o e) : life o w = [] :=
  List.filterMap_eq_nil_iff.mpr (fun e he => (h e he).1)

theorem created_silent {o ty status} {journal w : List Event} (h : ∀ e ∈ w, Silent o e) :
    Event.created (aggregateId o, ty) status ∈ journal ++ w ↔
      Event.created (aggregateId o, ty) status ∈ journal := by
  rw [List.mem_append, or_iff_left]
  exact fun hw => (h _ hw).2 ty status rfl

theorem Life.frame {s t : Store} {o : ℕ} {ph : Phase} {w : List Event} (h : Life s o ph)
    (horder : t.db.order o = s.db.order o)
    (hrows : ∀ ty, t.db.outboxEvent (aggregateId o, ty) = s.db.outboxEvent (aggregateId o, ty))
    (hj : t.journal = s.journal ++ w) (hw : ∀ e ∈ w, Silent o e) : Life t o ph where
  accepted := by rw [hj, life_append, life_silent hw, List.append_nil, h.accepted]
  status := by rw [horder, h.status]
  absent ty hn := h.absent ty (by rw [← hrows, hn])
  present ty row hr := h.present ty row (by rw [← hrows, hr])
  recorded ty status := by rw [hj, created_silent hw, h.recorded]

theorem Life.move {s t : Store} {o : ℕ} {ph ph' : Phase} {w : List Event} {e : LifeEvent}
    (h : Life s o ph) (hnext : next ph e = some ph') (hw : life o w = [e])
    (hcreated : ∀ ty status, .created (aggregateId o, ty) status ∉ w)
    (hph : ph'.createdAs = ph.createdAs)
    (hstatus : (t.db.order o).map (·.status) = ph'.orderStatus)
    (hrows : ∀ ty, t.db.outboxEvent (aggregateId o, ty) = s.db.outboxEvent (aggregateId o, ty))
    (hj : t.journal = s.journal ++ w) : Life t o ph' where
  accepted := by
    rw [hj, life_append, hw, Monitor.run_append, h.accepted]
    simp [Monitor.run, hnext]
  status := hstatus
  absent ty hn := by
    rw [hph]
    exact h.absent ty (by rw [← hrows, hn])
  present ty row hr := by
    rw [hph]
    exact h.present ty row (by rw [← hrows, hr])
  recorded ty status := by
    rw [hj, List.mem_append, or_iff_left (hcreated ty status), hph, h.recorded]

theorem Life.create {s t : Store} {o : ℕ} {ph ph' : Phase} {w : List Event} {e : LifeEvent}
    {ty₀ : OutboxEventType} {row₀ : OutboxEventRow} (h : Life s o ph)
    (hnext : next ph e = some ph') (hw : life o w = [e])
    (hcreated : ∀ ty status, .created (aggregateId o, ty) status ∈ w ↔
      ty = ty₀ ∧ status = row₀.status)
    (hnone : ph.createdAs ty₀ = none) (hpayload : Carries o row₀.payload)
    (hph : ph'.createdAs = Function.update ph.createdAs ty₀ (some row₀.status))
    (hstatus : (t.db.order o).map (·.status) = ph'.orderStatus)
    (hrow : t.db.outboxEvent (aggregateId o, ty₀) = some row₀)
    (hrows : ∀ ty, ty ≠ ty₀ →
      t.db.outboxEvent (aggregateId o, ty) = s.db.outboxEvent (aggregateId o, ty))
    (hj : t.journal = s.journal ++ w) : Life t o ph' where
  accepted := by
    rw [hj, life_append, hw, Monitor.run_append, h.accepted]
    simp [Monitor.run, hnext]
  status := hstatus
  absent ty hn := by
    by_cases hty : ty = ty₀
    · subst hty
      simp [hrow] at hn
    · rw [hph, Function.update_of_ne hty]
      exact h.absent ty (by rw [← hrows ty hty, hn])
  present ty row hr := by
    by_cases hty : ty = ty₀
    · subst hty
      cases hrow.symm.trans hr
      exact ⟨hpayload, row₀.status, by rw [hph, Function.update_self], .inl rfl⟩
    · rw [hph, Function.update_of_ne hty]
      exact h.present ty row (by rw [← hrows ty hty, hr])
  recorded ty status := by
    rw [hj, List.mem_append, hcreated, hph, h.recorded]
    by_cases hty : ty = ty₀
    · subst hty
      simp [hnone, eq_comm]
    · rw [Function.update_of_ne hty]
      simp [hty]

/-- Every order is at some stage, and there are no event rows but those of orders. -/
structure Lives (s : Store) : Prop where
  stage : ∀ o, ∃ ph, Life s o ph
  keys : ∀ key row, s.db.outboxEvent key = some row → ∃ o, key.1 = aggregateId o

theorem Lives.same {s t : Store} (h : Lives s) (hs : SameSaga s t) : Lives t where
  stage o := by
    obtain ⟨ph, hph⟩ := h.stage o
    exact ⟨ph, hph.frame (w := []) (by rw [hs.order]) (fun ty => by rw [hs.outboxEvent])
      (by rw [hs.journal, List.append_nil]) (by simp)⟩
  keys key row hr := h.keys key row (by rw [← hs.outboxEvent, hr])

/-- A step that concerns the order `o` only. -/
theorem Lives.advance {s t : Store} {o : ℕ} {w : List Event} (h : Lives s)
    (hj : t.journal = s.journal ++ w) (hw : ∀ o', o' ≠ o → ∀ e ∈ w, Silent o' e)
    (horder : ∀ o', o' ≠ o → t.db.order o' = s.db.order o')
    (hrows : ∀ o', o' ≠ o → ∀ ty,
      t.db.outboxEvent (aggregateId o', ty) = s.db.outboxEvent (aggregateId o', ty))
    (hkeys : ∀ key, key.1 ≠ aggregateId o → t.db.outboxEvent key = s.db.outboxEvent key)
    (hlife : ∀ ph, Life s o ph → ∃ ph', Life t o ph') : Lives t where
  stage o' := by
    obtain ⟨ph, hph⟩ := h.stage o'
    by_cases ho : o' = o
    · subst ho
      exact hlife ph hph
    · exact ⟨ph, hph.frame (horder o' ho) (hrows o' ho) hj (hw o' ho)⟩
  keys key row hr := by
    by_cases hkey : key.1 = aggregateId o
    · exact ⟨o, hkey⟩
    · exact h.keys key row (by rw [← hkeys key hkey, hr])

theorem Lives.insert {s t : Store} {o : ℕ} {ty : OutboxEventType} {row : OutboxEventRow}
    {w : List Event} (h : Lives s) (hj : t.journal = s.journal ++ w)
    (hw : ∀ o', o' ≠ o → ∀ e ∈ w, Silent o' e)
    (hcreated : ∀ ty' status, .created (aggregateId o, ty') status ∈ w ↔
      ty' = ty ∧ status = row.status)
    (horder : ∀ o', o' ≠ o → t.db.order o' = s.db.order o')
    (hnone : s.db.outboxEvent (aggregateId o, ty) = none)
    (hrow : t.db.outboxEvent = Function.update s.db.outboxEvent (aggregateId o, ty) (some row))
    (hpayload : Carries o row.payload)
    (hstep : ∀ ph, Life s o ph → ph.createdAs ty = none → ∃ e ph', next ph e = some ph' ∧
      life o w = [e] ∧ ph'.createdAs = Function.update ph.createdAs ty (some row.status) ∧
      (t.db.order o).map (·.status) = ph'.orderStatus) : Lives t := by
  refine h.advance hj hw horder (fun o' ho ty' => ?_) (fun key hkey => ?_) (fun ph hph => ?_)
  · rw [hrow, Function.update_of_ne (by simp [ho])]
  · rw [hrow, Function.update_of_ne (fun he => hkey (by rw [he]))]
  · have hph₀ := hph.absent ty hnone
    obtain ⟨e, ph', hnext, hlife, hcreatedAs, hstatus⟩ := hstep ph hph hph₀
    refine ⟨ph', hph.create hnext hlife hcreated hph₀ hpayload hcreatedAs hstatus ?_
      (fun ty' hty => ?_) hj⟩
    · rw [hrow, Function.update_self]
    · rw [hrow, Function.update_of_ne (by simp [hty])]

theorem Lives.update {s t : Store} {key : OutboxKey} {status : OutboxEventStatus}
    {v : OutboxEventRow} (h : Lives s)
    (hexec : Store.exec (.updateOutboxEvent key status) s (some v) t)
    (hstatus : ∀ born, .created key born ∈ s.journal → status = born ∨ status = .success) :
    Lives t := by
  obtain ⟨⟨old, hold, rfl⟩, ht⟩ := hexec
  have horder : t.db.order = s.db.order := ht ▸ rfl
  have hdb : t.db.outboxEvent = Function.update s.db.outboxEvent key
    (some { old with status := status }) := ht ▸ rfl
  obtain ⟨aggregate, ty⟩ := key
  obtain ⟨o, rfl⟩ := h.keys _ old hold
  have hj' : t.journal = s.journal ++ [.updated (aggregateId o, ty) old.status status] := by
    rw [ht, Store.after_update hold]
  have hsilent : ∀ o' e, e ∈ [Event.updated (aggregateId o, ty) old.status status] → Silent o' e := by
    simp [Silent, lifeEvent]
  have hrow : ∀ key', key' ≠ (aggregateId o, ty) → t.db.outboxEvent key' = s.db.outboxEvent key' :=
    fun key' hne => by rw [hdb, Function.update_of_ne hne]
  refine h.advance (o := o) hj' (fun o' _ => hsilent o') (fun o' _ => by rw [horder])
    (fun o' ho ty' => hrow _ (by simp [ho])) (fun key' hne => hrow key' (fun he => hne (by rw [he])))
    (fun ph hph => ⟨ph, ?_⟩)
  have hnew : t.db.outboxEvent (aggregateId o, ty) = some { old with status := status } := by
    rw [hdb, Function.update_self]
  obtain ⟨hcarries, born, hborn, _⟩ := hph.present ty old hold
  refine ⟨?_, by rw [horder, hph.status], fun ty' hn => ?_, fun ty' row hr => ?_, fun ty' st => ?_⟩
  · rw [hj', life_append, life_silent (hsilent o), List.append_nil, hph.accepted]
  · by_cases hty : ty' = ty
    · subst hty
      simp [hnew] at hn
    · exact hph.absent ty' (by rw [← hrow _ (by simp [hty]), hn])
  · by_cases hty : ty' = ty
    · subst hty
      cases hnew.symm.trans hr
      exact ⟨hcarries, born, hborn, hstatus born ((hph.recorded ty' born).mpr hborn)⟩
    · exact hph.present ty' row (by rw [← hrow _ (by simp [hty]), hr])
  · rw [hj', created_silent (hsilent o), hph.recorded]

theorem silent_created {o o' : ℕ} {ty : OutboxEventType} {status : OutboxEventStatus} (ho : o' ≠ o) :
    Silent o' (.created (aggregateId o, ty) status) := by
  simp [Silent, lifeEvent, Ne.symm ho]

theorem Lives.created {s t : Store} {o : ℕ} {ty : OutboxEventType} {payload : Json}
    {status : OutboxEventStatus} {v : OutboxEventRow} {w : List Event} (h : Lives s)
    (hexec : Store.exec (.createOutboxEvent (aggregateId o, ty) payload status) s (some v) t)
    (hpayload : Carries o payload) (hw : ∀ o', o' ≠ o → ∀ e ∈ w, Silent o' e)
    (hcreated : ∀ ty' status', .created (aggregateId o, ty') status' ∉ w)
    (hstep : ∀ ph, Life s o ph → ph.createdAs ty = none → ∃ e ph', next ph e = some ph' ∧
      life o (.created (aggregateId o, ty) status :: w) = [e] ∧
      ph'.createdAs = Function.update ph.createdAs ty (some status) ∧
      ph'.orderStatus = ph.orderStatus) : Lives { t with journal := t.journal ++ w } := by
  obtain ⟨⟨hnone, rfl⟩, rfl⟩ := hexec
  refine h.insert (o := o) (w := .created (aggregateId o, ty) status :: w) ?_
    (fun o' ho e he => ?_) ?_ (fun o' _ => rfl) hnone rfl hpayload (fun ph hph hn => ?_)
  · simp [Store.after, Query.events]
  · obtain rfl | he := List.mem_cons.mp he
    · exact silent_created ho
    · exact hw o' ho e he
  · simp [hcreated]
  · obtain ⟨e, ph', hnext, hlife, hcreatedAs, hstatus⟩ := hstep ph hph hn
    exact ⟨e, ph', hnext, hlife, hcreatedAs, hstatus ▸ hph.status⟩

def Born (o : ℕ) (ty : OutboxEventType) (status : OutboxEventStatus) (journal : List Event) : Prop :=
  .created (aggregateId o, ty) status ∈ journal

theorem Born.grow {o ty status} {journal journal' : List Event} (h : Born o ty status journal)
    (hj : journal <+: journal') : Born o ty status journal' := hj.subset h

/-- The row of an event that was once created is still there, with the status of its
creation or with `SUCCESS`. -/
theorem Lives.born_row {s : Store} (h : Lives s) {o : ℕ} {ty : OutboxEventType}
    {status : OutboxEventStatus} (hb : Born o ty status s.journal) :
    ∃ row, s.db.outboxEvent (aggregateId o, ty) = some row ∧
      (row.status = status ∨ row.status = .success) := by
  obtain ⟨ph, hph⟩ := h.stage o
  have hcreated := (hph.recorded ty status).mp hb
  cases hrow : s.db.outboxEvent (aggregateId o, ty) with
  | none => cases (hph.absent ty hrow).symm.trans hcreated
  | some row =>
    obtain ⟨_, born, hborn, hstatus⟩ := hph.present ty row hrow
    cases hborn.symm.trans hcreated
    exact ⟨row, rfl, hstatus⟩

section Stages

variable {s u t : Store} {o : ℕ} {payload : Json} {v : OutboxEventRow}

theorem Lives.deduct (h : Lives s) (hborn : Born o .orderCreated .init s.journal)
    (hpayload : Carries o payload)
    (hexec : Store.exec (.createOutboxEvent (aggregateId o, .orderDeductStock) payload .init) s
      (some v) t) : Lives { t with journal := t.journal ++ [.committed (.deductStock o)] } := by
  refine h.created hexec hpayload (fun o' ho => ?_) (by simp) (fun ph hph hn => ?_)
  · simp [Silent, lifeEvent, Ne.symm ho]
  · obtain rfl := placed_of ((hph.recorded _ _).mp hborn) hn
    exact ⟨.deduct, .deducted, rfl, by simp [life, lifeEvent],
      createdAs_next (e := .deduct) rfl rfl, rfl⟩

theorem Lives.reject (h : Lives s) (hborn : Born o .orderCreated .init s.journal)
    (hpayload : Carries o payload)
    (hexec : Store.exec (.createOutboxEvent (aggregateId o, .orderDeductStock) payload .fail) s
      (some v) t) : Lives t := by
  have ht : t = { t with journal := t.journal ++ [] } := by simp
  rw [ht]
  refine h.created hexec hpayload (fun o' ho => by simp) (by simp) (fun ph hph hn => ?_)
  obtain rfl := placed_of ((hph.recorded _ _).mp hborn) hn
  exact ⟨.reject, .rejected, rfl, by simp [life, lifeEvent],
    createdAs_next (e := .reject) rfl rfl, rfl⟩

theorem Lives.debit (h : Lives s) (hborn : Born o .orderDeductStock .init s.journal)
    (hpayload : Carries o payload)
    (hexec : Store.exec (.createOutboxEvent (aggregateId o, .orderPayment) payload .init) s
      (some v) t) : Lives { t with journal := t.journal ++ [.committed (.payment o)] } := by
  refine h.created hexec hpayload (fun o' ho => ?_) (by simp) (fun ph hph hn => ?_)
  · simp [Silent, lifeEvent, Ne.symm ho]
  · obtain rfl := deducted_of ((hph.recorded _ _).mp hborn) hn
    exact ⟨.debit, .debited, rfl, by simp [life, lifeEvent],
      createdAs_next (e := .debit) rfl rfl, rfl⟩

theorem Lives.refuse (h : Lives s) (hborn : Born o .orderDeductStock .init s.journal)
    (hpayload : Carries o payload)
    (hexec : Store.exec (.createOutboxEvent (aggregateId o, .orderPayment) payload .fail) s
      (some v) t) : Lives t := by
  have ht : t = { t with journal := t.journal ++ [] } := by simp
  rw [ht]
  refine h.created hexec hpayload (fun o' ho => by simp) (by simp) (fun ph hph hn => ?_)
  obtain rfl := deducted_of ((hph.recorded _ _).mp hborn) hn
  exact ⟨.refuse, .unpaid, rfl, by simp [life, lifeEvent],
    createdAs_next (e := .refuse) rfl rfl, rfl⟩

theorem Lives.place (h : Lives s) (hnone : s.db.order o = none) {userId : ℕ}
    (horder : u.db.order = Function.update s.db.order o (some ⟨userId, .pendingPayment⟩))
    (hrows : u.db.outboxEvent = s.db.outboxEvent) (hj : u.journal = s.journal)
    (hpayload : Carries o payload)
    (hexec : Store.exec (.createOutboxEvent (aggregateId o, .orderCreated) payload .init) u
      (some v) t) : Lives { t with journal := t.journal ++ [.committed .order] } := by
  obtain ⟨⟨hrow, rfl⟩, rfl⟩ := hexec
  refine h.insert (o := o)
    (w := [.created (aggregateId o, .orderCreated) .init, .committed .order]) ?_ (fun o' ho => ?_)
    ?_ (fun o' ho => ?_) (by rw [← hrows, hrow]) (by rw [← hrows]; rfl) hpayload
    (fun ph hph _ => ?_)
  · simp [Store.after, hj, Query.events]
  · simp [Silent, lifeEvent, Ne.symm ho]
  · simp
  · simp [Store.after, Query.apply, horder, ho]
  · obtain rfl := absent_of (by rw [← hph.status, hnone]; rfl)
    refine ⟨.place, .placed, rfl, by simp [life, lifeEvent],
      createdAs_next (e := .place) rfl rfl, ?_⟩
    simp [Store.after, Query.apply, horder, Phase.orderStatus]

theorem Lives.pay (h : Lives s) (hborn : Born o .orderPayment .init s.journal)
    (hpayload : Carries o payload) {order : OrderRow}
    (hset : Store.exec (.updateOrder o .paid) s (some order) u)
    (hexec : Store.exec (.createOutboxEvent (aggregateId o, .orderSuccess) payload .init) u
      (some v) t) : Lives { t with journal := t.journal ++ [.committed (.orderSuccess o)] } := by
  obtain ⟨⟨old, hold, rfl⟩, rfl⟩ := hset
  obtain ⟨⟨hrow, rfl⟩, rfl⟩ := hexec
  refine h.insert (o := o) (w := [.orderSet o .paid, .created (aggregateId o, .orderSuccess) .init,
      .committed (.orderSuccess o)]) ?_ (fun o' ho => ?_) ?_ (fun o' ho => ?_)
    hrow rfl hpayload (fun ph hph hn => ?_)
  · simp [Store.after, Query.events]
  · simp [Silent, lifeEvent, Ne.symm ho]
  · simp
  · exact Function.update_of_ne ho _ _
  · obtain rfl := debited_of ((hph.recorded _ _).mp hborn) hn
    refine ⟨.pay, .paid, rfl, by simp [life, lifeEvent], createdAs_next (e := .pay) rfl rfl, ?_⟩
    simp [Store.after, Query.apply, Phase.orderStatus]

theorem Lives.restore (h : Lives s) (hborn : Born o .orderPayment .fail s.journal)
    (hs : SameSaga s t) :
    Lives { t with journal := t.journal ++ [.committed (.restoreStock o)] } := by
  refine h.advance (o := o) (w := [.committed (.restoreStock o)]) (by rw [hs.journal])
    (fun o' ho => ?_) (fun o' _ => by rw [hs.order]) (fun o' _ ty => by rw [hs.outboxEvent])
    (fun key _ => by rw [hs.outboxEvent]) (fun ph hph => ?_)
  · simp [Silent, lifeEvent, Ne.symm ho]
  · obtain rfl := unpaid_of ((hph.recorded _ _).mp hborn)
    refine ⟨.unpaid, hph.move (w := [.committed (.restoreStock o)]) (e := .restore) rfl
      (by simp [life, lifeEvent]) (by simp) rfl ?_ (fun ty => by rw [hs.outboxEvent])
      (by rw [hs.journal])⟩
    rw [hs.order, hph.status]

theorem Lives.cancel (h : Lives s) {ty : OutboxEventType} (hborn : Born o ty .fail s.journal)
    (hty : ty ≠ .orderPayment) {order : OrderRow}
    (hset : Store.exec (.updateOrder o .failed) s (some order) t) : Lives t := by
  obtain ⟨⟨old, hold, rfl⟩, rfl⟩ := hset
  refine h.advance (o := o) (w := [.orderSet o .failed]) rfl (fun o' ho => ?_)
    (fun o' ho => Function.update_of_ne ho _ _) (fun _ _ _ => rfl) (fun _ _ => rfl)
    (fun ph hph => ?_)
  · simp [Silent, lifeEvent, Ne.symm ho]
  · have hnext : next ph .cancel = some .cancelled := by
      obtain ⟨_, rfl | rfl⟩ := rejected_of ((hph.recorded _ _).mp hborn) hty
      · rfl
      · rfl
    refine ⟨.cancelled, hph.move (w := [.orderSet o .failed]) hnext (by simp [life, lifeEvent])
      (by simp) (createdAs_same hnext rfl) ?_ (fun _ => rfl) rfl⟩
    simp [Store.after, Query.apply, Phase.orderStatus]

end Stages

theorem Lives.born_unique {s : Store} (h : Lives s) {o : ℕ} {ty : OutboxEventType}
    {status status' : OutboxEventStatus} (hb : Born o ty status s.journal)
    (hb' : Born o ty status' s.journal) : status = status' := by
  obtain ⟨ph, hph⟩ := h.stage o
  exact Option.some.inj
    (((hph.recorded ty status).mp hb).symm.trans ((hph.recorded ty status').mp hb'))

end EcommerceService.SagaInvariant
