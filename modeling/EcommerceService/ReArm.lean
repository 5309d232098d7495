import EcommerceService.SagaSafety
import EcommerceService.SagaRuns

namespace EcommerceService.ReArm

open EcommerceService.Effects EcommerceService.Errors EcommerceService.Models
open EcommerceService.Database EcommerceService.Repositories EcommerceService.Backend
open EcommerceService.Facades EcommerceService.OutboxPolling EcommerceService.Pool
open EcommerceService.TransactionEffects EcommerceService.Saga EcommerceService.SagaCalls
open EcommerceService.SagaInvariant EcommerceService.SagaSafety EcommerceService.SagaRuns

def Arms (key : OutboxKey) : Event → Prop
  | .created key' status => key' = key ∧ status = .init
  | .updated key' _ new => key' = key ∧ new = .init
  | _ => False

/-- The event of type `ty` of the order `o` was published since its row was last set to
`INIT`. -/
def Fresh (o : ℕ) (ty : OutboxEventType) (journal : List Event) : Prop :=
  ∃ u v, journal = u ++ .published ty o :: v ∧ ∀ e ∈ v, ¬ Arms (aggregateId o, ty) e

/-- The row never went from `INIT` to `SUCCESS` but after such a publication. -/
def Heard (o : ℕ) (ty : OutboxEventType) (journal : List Event) : Prop :=
  ∀ u v, journal = u ++ .updated (aggregateId o, ty) .init .success :: v → Fresh o ty u

def armCall (o : ℕ) (ty : OutboxEventType) : Call :=
  .statement (.updateOutboxEvent (aggregateId o, ty) .init)

/-- The `ORDER_CREATED` row of `o` is not set back to `INIT` while a process that has
published the event is about to set it to `SUCCESS`. -/
def Patient (o : ℕ) (c : Configuration) : Action → Prop
  | .call _ q _ => q = armCall o .orderCreated → ∀ i, ¬ Waits c i (markCall o .orderCreated)
  | _ => True

section Journal

variable {o : ℕ} {ty : OutboxEventType} {journal w : List Event}

theorem Fresh.append (h : Fresh o ty journal) (hw : ∀ e ∈ w, ¬ Arms (aggregateId o, ty) e) :
    Fresh o ty (journal ++ w) := by
  obtain ⟨u, v, rfl, hv⟩ := h
  refine ⟨u, v ++ w, by simp, fun e he => ?_⟩
  obtain he | he := List.mem_append.mp he
  · exact hv e he
  · exact hw e he

theorem split_append {u v : List Event} {e : Event} (h : journal ++ w = u ++ e :: v) :
    (∃ v', journal = u ++ e :: v') ∨ ∃ u', u = journal ++ u' ∧ w = u' ++ e :: v := by
  obtain ⟨a, hu, hw⟩ | ⟨a, hj, hv⟩ := List.append_eq_append_iff.mp h
  · exact .inr ⟨a, hu, hw⟩
  · cases a with
    | nil => exact .inr ⟨[], by simpa using hj.symm, hv.symm⟩
    | cons e' a =>
      obtain ⟨rfl, _⟩ := List.cons.inj hv
      exact .inl ⟨a, hj⟩

theorem Heard.append (h : Heard o ty journal)
    (hw : .updated (aggregateId o, ty) .init .success ∉ w) : Heard o ty (journal ++ w) := by
  intro u v huv
  obtain ⟨v', hj⟩ | ⟨u', _, rfl⟩ := split_append huv
  · exact h u v' hj
  · exact absurd (List.mem_append_right _ List.mem_cons_self) hw

theorem Heard.marked (h : Heard o ty journal) (hfresh : Fresh o ty journal) (e : Event) :
    Heard o ty (journal ++ [e]) := by
  intro u v huv
  obtain ⟨v', hj⟩ | ⟨u', rfl, he⟩ := split_append huv
  · exact h u v' hj
  · cases u' with
    | nil => simpa using hfresh
    | cons _ _ => simp at he

theorem Fresh.unarmed {e : Event} (h : Fresh o ty (journal ++ [e])) :
    ¬ Arms (aggregateId o, ty) e := by
  obtain ⟨u, v, hj, hv⟩ := h
  obtain rfl | ⟨v, e', rfl⟩ := List.eq_nil_or_concat' v
  · rw [List.singleton_inj.mp (List.append_inj' hj rfl).2]
    exact id
  · rw [← List.cons_append, ← List.append_assoc] at hj
    rw [List.singleton_inj.mp (List.append_inj' hj rfl).2]
    exact hv e' (List.mem_append_right _ List.mem_cons_self)

theorem Fresh.published (journal : List Event) : Fresh o ty (journal ++ [.published ty o]) :=
  ⟨journal, [], rfl, by simp⟩

end Journal

section Calls

variable {o : ℕ} {ty : OutboxEventType} {job : Job} {q : Call} {w w' : World} {r : q.Reply}

theorem makes_arm (h : Makes job (armCall o ty)) : ty = .orderCreated := by
  obtain ⟨_, _, _, hkey, _⟩ | ⟨_, _, _, _, hstatus | ⟨_, hstatus⟩⟩ := Makes.update h
  · exact (Prod.mk.inj hkey).2
  · cases hstatus
  · cases hstatus

theorem events_arm {q : Query} {v : q.Answer} {db : Tables} {key : OutboxKey} {e : Event}
    (hv : q.Allows db v) (he : e ∈ q.events db) (ha : Arms key e) :
    q = .updateOutboxEvent key .init ∨ db.outboxEvent key = none := by
  cases q with
  | createOutboxEvent key' payload status =>
    obtain rfl := List.mem_singleton.mp he
    obtain ⟨rfl, _⟩ := ha
    exact .inr hv.1
  | updateOutboxEvent key' status =>
    obtain ⟨old, _, rfl⟩ := Option.map_eq_some_iff.mp (Option.mem_toList.mp he)
    obtain ⟨rfl, rfl⟩ := ha
    exact .inl rfl
  | updateOrder id status =>
    obtain rfl := List.mem_singleton.mp he
    exact ha.elim
  | _ => cases he

theorem events_mark {q : Query} {db : Tables} {key : OutboxKey} {old : OutboxEventStatus}
    (he : .updated key old .success ∈ q.events db) : q = .updateOutboxEvent key .success ∧
      ∃ row, db.outboxEvent key = some row ∧ row.status = old := by
  cases q with
  | createOutboxEvent _ _ _ => cases List.mem_singleton.mp he
  | updateOutboxEvent key' status =>
    obtain ⟨row, hrow, heq⟩ := Option.map_eq_some_iff.mp (Option.mem_toList.mp he)
    injection heq with hkey hold hstatus
    subst hkey hstatus
    exact ⟨rfl, row, hrow, hold⟩
  | updateOrder _ _ => cases List.mem_singleton.mp he
  | _ => cases he

/-- What a call adds to the journal: only `armCall` sets an old row to `INIT`, and only
`markCall` sets it to `SUCCESS`. -/
theorem exec_adds (o : ℕ) (ty : OutboxEventType) (h : Makes job q) (hexec : World.exec q w r w') :
    ∃ d, w'.store.journal = w.store.journal ++ d ∧
      (∀ e ∈ d, Arms (aggregateId o, ty) e →
        q = armCall o ty ∨ w.store.db.outboxEvent (aggregateId o, ty) = none) ∧
      (∀ old, .updated (aggregateId o, ty) old .success ∈ d → q = markCall o ty ∧
        ∃ row, w.store.db.outboxEvent (aggregateId o, ty) = some row ∧ row.status = old) := by
  cases World.exec_change hexec with
  | same => exact ⟨[], (List.append_nil _).symm, by simp, by simp⟩
  | @statement q v w t hq =>
    obtain ⟨hallows, rfl⟩ := hq
    exact ⟨q.events w.store.db, rfl,
      fun e he ha => (events_arm hallows he ha).imp (congrArg Call.statement) id,
      fun old he => (events_mark he).imp (congrArg Call.statement) id⟩
  | @commit kind A body a w t hr =>
    obtain ⟨d, hj, hd⟩ := (h.creates hr).journal
    refine ⟨d ++ [.committed kind], by simp [World.commit, hj], fun e he ha => ?_, fun old he => ?_⟩
    · obtain he | he := List.mem_append.mp he
      · obtain ⟨key, status, rfl, hnone⟩ | ⟨id, status, rfl⟩ := hd e he
        · exact .inr (ha.1 ▸ hnone)
        · exact ha.elim
      · obtain rfl := List.mem_singleton.mp he
        exact ha.elim
    · obtain he | he := List.mem_append.mp he
      · obtain ⟨_, _, he, _⟩ | ⟨_, _, he⟩ := hd _ he
        · cases he
        · cases he
      · cases List.mem_singleton.mp he
  | publish => exact ⟨_, rfl, by simp [Arms], by simp⟩

theorem exec_fresh (h : Makes job q) (hq : q ≠ armCall o ty) (hexec : World.exec q w r w')
    (hrow : ∃ row, w.store.db.outboxEvent (aggregateId o, ty) = some row)
    (hfresh : Fresh o ty w.store.journal) : Fresh o ty w'.store.journal := by
  obtain ⟨d, hj, harm, _⟩ := exec_adds o ty h hexec
  rw [hj]
  refine hfresh.append (fun e he ha => ?_)
  obtain hcall | hnone := harm e he ha
  · exact hq hcall
  · obtain ⟨row, hrow⟩ := hrow
    cases hnone.symm.trans hrow

theorem exec_heard (h : Makes job q) (hexec : World.exec q w r w')
    (hq : q = markCall o ty → ∀ row, w.store.db.outboxEvent (aggregateId o, ty) = some row →
      row.status ≠ .init) (hheard : Heard o ty w.store.journal) : Heard o ty w'.store.journal := by
  obtain ⟨d, hj, _, hmark⟩ := exec_adds o ty h hexec
  rw [hj]
  refine hheard.append (fun hmem => ?_)
  obtain ⟨hcall, row, hrow, hinit⟩ := hmark .init hmem
  exact hq hcall row hrow hinit

theorem exec_marked {r : (markCall o ty).Reply} (hexec : World.exec (markCall o ty) w r w')
    (hheard : Heard o ty w.store.journal) (hfresh : Fresh o ty w.store.journal) :
    Heard o ty w'.store.journal := by
  cases World.exec_change hexec with
  | same => exact hheard
  | statement hq =>
    obtain ⟨⟨old, hold, rfl⟩, rfl⟩ := hq
    exact (Store.after_update hold).symm ▸ hheard.marked hfresh _

end Calls

section Rule

variable {o : ℕ} {ty : OutboxEventType}

structure Kept (o : ℕ) (ty : OutboxEventType) (w : World) : Prop where
  consistent : Consistent w
  heard : Heard o ty w.store.journal

def Lasts (o : ℕ) (ty : OutboxEventType) (w w' : World) : Prop :=
  Born o ty .init w.store.journal → Fresh o ty w.store.journal → Fresh o ty w'.store.journal

/-- A process that is about to mark the row relies on the others not to arm it. -/
def rely (o : ℕ) (ty : OutboxEventType) (q : Call) (w w' : World) : Prop :=
  grows q w w' ∧ (q = markCall o ty → Lasts o ty w w')

def guar (o : ℕ) (ty : OutboxEventType) (q : Call) (w w' : World) : Prop :=
  grows q w w' ∧ ((ty = .orderCreated ∧ q = armCall o ty) ∨ Lasts o ty w w')

variable {job : Job} {q : Call} {w w' : World} {r : q.Reply}

/-- Every call of a job keeps what is kept, as long as it does not mark an `INIT` row that
was not published. -/
theorem call_keeps (hk : Knows job w.store.journal) (h : Makes job q) (hw : Kept o ty w)
    (hexec : World.exec q w r w') (hmark : q = markCall o ty → Fresh o ty w.store.journal ∨
      ∀ row, w.store.db.outboxEvent (aggregateId o, ty) = some row → row.status ≠ .init) :
    Kept o ty w' ∧ guar o ty q w w' := by
  refine ⟨⟨(makes_keeps h).exec hw.consistent hk hexec, ?_⟩, World.exec_journal hexec, ?_⟩
  · by_cases hq : q = markCall o ty
    · subst hq
      obtain hfresh | hold := hmark rfl
      · exact exec_marked hexec hw.heard hfresh
      · exact exec_heard h hexec (fun _ => hold) hw.heard
    · exact exec_heard h hexec (fun hcall => absurd hcall hq) hw.heard
  · by_cases hq : q = armCall o ty
    · exact .inl ⟨makes_arm (hq ▸ h), hq⟩
    · refine .inr (fun hborn => exec_fresh h hq hexec ?_)
      obtain ⟨row, hrow, _⟩ := hw.consistent.lives.born_row hborn
      exact ⟨row, hrow⟩

def Publishes (o : ℕ) (ty : OutboxEventType) : Job → Prop
  | .event .handleInitEvents e => e.aggregateId = aggregateId o ∧ e.eventType = ty
  | _ => False

theorem makes_mark {journal : List Event} (hk : Knows job journal) (hjob : ¬ Publishes o ty job)
    (h : Makes job (markCall o ty)) : Born o ty .fail journal := by
  obtain ⟨_, _, _, _, hstatus⟩ | ⟨poll, e, rfl, hkey, _⟩ := Makes.update h
  · cases hstatus
  · obtain ⟨hid, rfl⟩ := Prod.mk.inj hkey
    cases poll with
    | handleInitEvents => exact absurd ⟨hid.symm, rfl⟩ hjob
    | handleFailedEvents =>
      obtain ⟨info, hkey, _, hborn⟩ := hk
      obtain rfl := aggregateId_inj.mp (hid.trans hkey)
      exact hborn

theorem other_safe (hk : Knows job w.store.journal) (hjob : ¬ Publishes o ty job) :
    Safe World.exec (Kept o ty) (rely o ty) (guar o ty) (fun _ _ => True) job.program w := by
  refine (Safe.of_within (calls_program hk.readable) (F := fun w : World => Knows job w.store.journal)
    hk (fun _ _ _ hrely hk => hk.grow hrely.1) (fun c w r w' hc hw hk hexec => ?_)).mono
      (fun _ _ _ => trivial)
  have hmark : c = markCall o ty → ∀ row,
      w.store.db.outboxEvent (aggregateId o, ty) = some row → row.status ≠ .init := by
    rintro rfl row hrow
    obtain ⟨row', hrow', hstatus⟩ := hw.consistent.lives.born_row (makes_mark hk hjob hc)
    obtain rfl := Option.some.inj (hrow'.symm.trans hrow)
    rcases hstatus with hstatus | hstatus <;> simp [hstatus]
  obtain ⟨hkept, hguar⟩ := call_keeps hk hc hw hexec (fun hq => .inr (hmark hq))
  exact ⟨⟨w, w', hexec⟩, hkept, hguar, hk.grow hguar.1⟩

variable {info : CreateOrderInfo} {status : OutboxEventStatus}

theorem readEvent_knows (hborn : Born info.order.id ty .init w.store.journal) :
    Knows (.event .handleInitEvents (readEvent info ty status)) w.store.journal :=
  ⟨info, rfl, rfl, hborn⟩

theorem produce_safe (hborn : Born info.order.id ty .init w.store.journal) :
    Safe World.exec (Kept info.order.id ty) (rely info.order.id ty) (guar info.order.id ty)
      (fun x w => Born info.order.id ty .init w.store.journal ∧
        (x = .success () → Fresh info.order.id ty w.store.journal))
      (produce ty info.order.id (readEvent info ty status)) w := by
  let F : World → Prop := fun w => Born info.order.id ty .init w.store.journal
  refine Safe.retry (F := F) 3 (fun w hborn => ?_) hborn
  intro w₁ hrely hw r w₂ hexec
  have hborn₁ : F w₁ := hborn.grow hrely.1
  have hmakes : Makes (.event .handleInitEvents (readEvent info ty status)) _ := .publish rfl
  obtain ⟨hkept, hguar⟩ := call_keeps (readEvent_knows hborn₁) hmakes hw hexec (fun hq => nomatch hq)
  have hborn₂ : F w₂ := hborn₁.grow hguar.1
  refine ⟨hkept, hguar, ?_⟩
  cases r with
  | true =>
    obtain ⟨hfalse, _⟩ | rfl := hexec
    · cases hfalse
    · exact ⟨hborn₂, fun _ => .published _⟩
  | false => exact ⟨hborn₂, fun h => nomatch h⟩

theorem marking_safe (hborn : Born info.order.id ty .init w.store.journal)
    (hfresh : Fresh info.order.id ty w.store.journal) :
    Safe World.exec (Kept info.order.id ty) (rely info.order.id ty) (guar info.order.id ty)
      (fun _ w => Born info.order.id ty .init w.store.journal)
      (updateStatus (readEvent info ty status) .success) w := by
  intro w₁ hrely hw r w₂ hexec
  have hborn₁ := hborn.grow hrely.1
  have hmakes : Makes (.event .handleInitEvents (readEvent info ty status)) _ := .success
  obtain ⟨hkept, hguar⟩ := call_keeps (readEvent_knows hborn₁) hmakes hw hexec
    (fun _ => .inl (hrely.2 rfl hborn hfresh))
  refine ⟨hkept, hguar, ?_⟩
  cases r with
  | some v => exact hborn₁.grow hguar.1
  | none => exact hborn₁.grow hguar.1

def HasProducer (ty : OutboxEventType) : Prop :=
  ty = .orderCreated ∨ ty = .orderDeductStock ∨ ty = .orderPayment

theorem processing_eq (hty : HasProducer ty) :
    processOutboxEvent (readEvent info ty status) =
      ((produce ty info.order.id (readEvent info ty status)).tap
        (fun _ => updateStatus (readEvent info ty status) .success)).catchAll
        (fun _ => .succeed ()) := by
  rcases hty with rfl | rfl | rfl <;> rfl

/-- Publishing and marking the event is safe, and it does not fail. -/
theorem processing_safe (hty : HasProducer ty) (hborn : Born info.order.id ty .init w.store.journal) :
    Safe World.exec (Kept info.order.id ty) (rely info.order.id ty) (guar info.order.id ty)
      (fun x w => Born info.order.id ty .init w.store.journal ∧ ∀ e, x ≠ .failure e)
      (processOutboxEvent (readEvent info ty status)) w := by
  rw [processing_eq hty]
  refine Safe.catchAll (Safe.flatMap ((produce_safe hborn).mono (fun x w hx => ?_)))
  obtain ⟨hborn, hfresh⟩ := hx
  cases x with
  | success a =>
    refine Safe.flatMap ((marking_safe hborn (hfresh rfl)).mono (fun y w hborn => ?_))
    cases y with
    | success a => exact ⟨hborn, fun e h => nomatch h⟩
    | failure e => exact ⟨hborn, fun e h => nomatch h⟩
    | defect => exact ⟨hborn, fun e h => nomatch h⟩
  | failure e => exact ⟨hborn, fun e h => nomatch h⟩
  | defect => exact ⟨hborn, fun e h => nomatch h⟩

theorem publisher_safe (hty : HasProducer ty) (hborn : Born info.order.id ty .init w.store.journal) :
    Safe World.exec (Kept info.order.id ty) (rely info.order.id ty) (guar info.order.id ty)
      (fun _ _ => True) (Poll.handle .handleInitEvents (readEvent info ty status)) w := by
  let F : World → Prop := fun w => Born info.order.id ty .init w.store.journal
  refine Safe.catchAll ((Safe.retry (F := F) 3 (fun w hw => processing_safe hty hw) hborn).mono
    (fun x w hx => ?_))
  cases x with
  | success a => trivial
  | failure e => exact absurd rfl (hx.2 e)
  | defect => trivial

theorem program_safe (hty : HasProducer ty) (hk : Knows job w.store.journal) :
    Safe World.exec (Kept o ty) (rely o ty) (guar o ty) (fun _ _ => True) job.program w := by
  by_cases hjob : Publishes o ty job
  · cases job with
    | order userId orderItems => exact hjob.elim
    | message m => exact hjob.elim
    | event poll e =>
      cases poll with
      | handleFailedEvents => exact hjob.elim
      | handleInitEvents =>
        obtain ⟨info, hkey, hpayload, hborn⟩ := hk
        obtain ⟨hid, rfl⟩ := hjob
        obtain rfl := aggregateId_inj.mp (hid.symm.trans hkey)
        obtain ⟨aggregate, ty, payload, status⟩ := e
        cases hid
        cases hpayload
        exact publisher_safe hty hborn
  · exact other_safe hk hjob

end Rule

section Runs

variable {o : ℕ} {ty : OutboxEventType} {ok : Configuration → Action → Prop} {c : Configuration}

theorem saga_sound (hty : HasProducer ty)
    (hok : ∀ c l, ok c l → ty = .orderCreated → Patient o c l) :
    Sound saga ok (Kept o ty) (rely o ty) (guar o ty) where
  refl _ _ := ⟨List.prefix_refl _, fun _ _ h => h⟩
  trans _ _ _ _ h h' :=
    ⟨h.1.trans h'.1, fun hq hborn hfresh => h'.2 hq (hborn.grow h.1) (h.2 hq hborn hfresh)⟩
  env w w' hw h := by
    obtain ⟨hw', hstore⟩ := hw.consistent.poll h
    exact ⟨⟨hw', hstore ▸ hw.heard⟩, fun _ => by simp [rely, grows, Lasts, hstore]⟩
  start _ job w w' hw h := by
    obtain ⟨hw', hstore, hk⟩ := start_knows hw.consistent h
    exact ⟨⟨hw', hstore ▸ hw.heard⟩, fun _ => by simp [rely, grows, Lasts, hstore],
      program_safe hty hk⟩
  call c i q r w' _ _ _ _ hg hc i' q' _ hwait := by
    refine ⟨hg.1, fun hq' => ?_⟩
    obtain ⟨rfl, hq⟩ | hlasts := hg.2
    · exact absurd (hq' ▸ hwait) (hok c _ hc rfl hq i')
    · exact hlasts

theorem reachable_heard (hty : HasProducer ty)
    (hok : ∀ c l, ok c l → ty = .orderCreated → Patient o c l) (h : Reachable ok c) :
    Heard o ty c.shared.store.journal := by
  obtain ⟨w, hinit, hreach⟩ := h
  have hkept : Kept o ty w := ⟨.initial hinit, fun u v huv => by simp [hinit.journal] at huv⟩
  exact ((saga_sound hty hok).reaches hkept hreach).1.heard

/-- A row only goes from `INIT` to `SUCCESS` when its event was published since it was last
set to `INIT`: always for `ORDER_DEDUCT_STOCK` and `ORDER_PAYMENT`, and in patient runs for
`ORDER_CREATED`. -/
theorem no_rearmed_event_lost (o : ℕ) :
    (∀ c, Reachable (Patient o) c → Heard o .orderCreated c.shared.store.journal) ∧
    (∀ c, Reachable anyStep c → Heard o .orderDeductStock c.shared.store.journal ∧
      Heard o .orderPayment c.shared.store.journal) :=
  ⟨fun _ h => reachable_heard (.inl rfl) (fun _ _ hok _ => hok) h,
    fun _ h => ⟨reachable_heard (.inr (.inl rfl)) (fun _ _ _ hty => nomatch hty) h,
      reachable_heard (.inr (.inr rfl)) (fun _ _ _ hty => nomatch hty) h⟩⟩

theorem permits_patient (o : ℕ) : Permits (Patient o) where
  env _ := trivial
  start _ _ _ := trivial
  call i job q k w r _ := by
    rintro rfl i' hwait
    obtain ⟨_, hp⟩ := waits_alone hwait
    injection hp with hq
    injection hq with hq
    injection hq with _ hstatus
    cases hstatus
  stop _ _ _ _ _ := trivial

theorem no_rearmed_event_lost_closed : ∃ c : Configuration, Reachable (Patient 1) c ∧
    (∀ ty, HasProducer ty → .updated (aggregateId 1, ty) .init .success ∈ c.shared.store.journal) ∧
    ∀ ty, HasProducer ty → Heard 1 ty c.shared.store.journal := by
  obtain ⟨w, hshows, _, _, hstaged⟩ := 
    (Purchase.staged_closed (tea_covered 10) tea_enough).reached (tea 10).initial
  have hpatient := hstaged _ (permits_patient 1)
  obtain ⟨hdeduct, hpayment⟩ := (no_rearmed_event_lost 1).2 _ (hstaged _ permits_anyStep)
  refine ⟨_, hpatient, fun ty hty => ?_, fun ty hty => ?_⟩
  · show _ ∈ w.store.journal
    rw [hshows.journal]
    exact (Purchase.closed_journal hty).2
  · rcases hty with rfl | rfl | rfl
    · exact (no_rearmed_event_lost 1).1 _ hpatient
    · exact hdeduct
    · exact hpayment

/-- A second poller has read the event before the first one marked it. The handling of the
first message fails and arms the row, and then the second poller marks it too. -/
theorem rearmed_event_lost : ¬ ∀ (c : Configuration) (o : ℕ) (ty : OutboxEventType),
    HasProducer ty → Reachable anyStep c → Heard o ty c.shared.store.journal := by
  intro h
  let poller : Job := .event .handleInitEvents (readEvent firstOrder .orderCreated .init)
  let consumer : Job := .message (messageOf firstOrder .orderCreated)
  obtain ⟨w, hshows, hpublished, hbatches, hstaged⟩ :=
    ((Purchase.staged_read_twice (b := tea 10)).send (.inl rfl) rfl).reached (tea 10).initial
  obtain ⟨w₀, hinit, hreach⟩ := hstaged _ permits_anyStep
  have hread : (.handleInitEvents, readEvent firstOrder .orderCreated .init) ∈ w.batches := by
    rw [hbatches]
    exact List.mem_cons_self
  have hsent : messageOf firstOrder .orderCreated ∈ w.published := by
    rw [hpublished]
    exact List.mem_cons_self
  let w₁ : World :=
    { w with batches := w.batches.erase (.handleInitEvents, readEvent firstOrder .orderCreated .init) }
  let w₂ := w₁.publish .orderCreated 1 (textOf firstOrder).stringify
  let w₃ : World := { w₂ with
    store := w₂.store.after (.findUniqueOutboxEvent (rowKey firstOrder .orderCreated)) (some ⟨textOf firstOrder, .success⟩) }
  let w₄ : World := { w₃ with
    store := w₃.store.after (.updateOutboxEvent (rowKey firstOrder .orderCreated) .init) ⟨textOf firstOrder, .init⟩ }
  let w₅ : World := { w₄ with
    store := w₄.store.after (.updateOutboxEvent (rowKey firstOrder .orderCreated) .success) ⟨textOf firstOrder, .success⟩ }
  have hlogged := hshows.logged (.published .orderCreated 1)
  have hfound := hlogged.found .orderCreated (some ⟨textOf firstOrder, .success⟩)
  have harmed := hfound.marked .orderCreated rfl .init
  have hmarked := harmed.marked .orderCreated rfl .success
  have hrejected : saga.exec (.transaction (.deductStock 1) Unit (PrismaService.effectWithTransaction
      (ProductFacade.deducting firstOrder))) w₂ (.rejected none) w₂ := .inl rfl
  have hlooked : saga.exec (.statement (.findUniqueOutboxEvent (rowKey firstOrder .orderCreated))) w₂
      (some (some ⟨textOf firstOrder, .success⟩)) w₃ := ⟨_, ⟨(hlogged.row .orderCreated rfl).symm, rfl⟩, rfl⟩
  have hinitial : saga.exec (armCall 1 .orderCreated) w₃ (some ⟨textOf firstOrder, .init⟩) w₄ :=
    ⟨_, ⟨⟨_, hfound.row .orderCreated rfl, rfl⟩, rfl⟩, rfl⟩
  have hsuccess : saga.exec (markCall 1 .orderCreated) w₄ (some ⟨textOf firstOrder, .success⟩) w₅ :=
    ⟨_, ⟨⟨_, harmed.row .orderCreated rfl, rfl⟩, rfl⟩, rfl⟩
  have hstart₀ := hreach.start (i := 0) (j := poller) (s := w₁) rfl ⟨hread, rfl⟩ trivial
  have hstart₁ := hstart₀.start (i := 1) (j := consumer) (s := w₁) rfl ⟨hsent, rfl⟩ trivial
  have hpublish := hstart₁.call (i := 0) (j := poller) (r := true) (s := w₂) rfl (.inr rfl) trivial
  have hreject := hpublish.call (i := 1) (j := consumer) rfl hrejected trivial
  have hfind := hreject.call (i := 1) (j := consumer) rfl hlooked trivial
  have harm := hfind.call (i := 1) (j := consumer) rfl hinitial trivial
  have hmark := harm.call (i := 0) (j := poller) rfl hsuccess trivial
  have hheard := h _ 1 .orderCreated (.inl rfl) ⟨w₀, hinit, hmark⟩
  exact (hheard _ [] hmarked.journal).unarmed ⟨rfl, rfl⟩

end Runs

end EcommerceService.ReArm
