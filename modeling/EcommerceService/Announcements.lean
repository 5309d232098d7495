import EcommerceService.ReArm
import EcommerceService.SagaOutcomes

namespace EcommerceService.Announcements

open EcommerceService.Effects EcommerceService.Errors EcommerceService.Models
open EcommerceService.Database EcommerceService.Repositories EcommerceService.Backend
open EcommerceService.Services EcommerceService.Facades EcommerceService.OutboxPolling
open EcommerceService.Pool EcommerceService.OrderLife EcommerceService.TransactionEffects
open EcommerceService.Saga EcommerceService.SagaCalls EcommerceService.SagaInvariant
open EcommerceService.SagaSafety EcommerceService.SagaOutcomes EcommerceService.SagaRuns
open EcommerceService.ReArm (HasProducer processing_eq)

section Marks

def Announced (o : ℕ) (ty : OutboxEventType) (w : World) : Prop :=
  ∃ m ∈ w.published, m.eventType = ty ∧ m.key = o ∧
    ∃ info, orderInfoOf (received m.value) = some info ∧ info.order.id = o

/-- What an event asks for that was created with this status. -/
def Done (o : ℕ) (ty : OutboxEventType) (w : World) : OutboxEventStatus → Prop
  | .init => HasProducer ty → Announced o ty w
  | .fail => ty = .orderDeductStock → .orderSet o .failed ∈ w.store.journal
  | .success => True

/-- A row is only marked when what its event asks for is done. -/
structure Told (w : World) : Prop where
  consistent : Consistent w
  done : ∀ o ty row status, w.store.db.outboxEvent (aggregateId o, ty) = some row →
    row.status = .success → Born o ty status w.store.journal → Done o ty w status

def onward (_ : Call) (w w' : World) : Prop :=
  w.store.journal <+: w'.store.journal ∧ ∀ m ∈ w.published, m ∈ w'.published

variable {o : ℕ} {ty : OutboxEventType} {status : OutboxEventStatus} {w w' : World} {q : Call}
  {job : Job} {r : q.Reply} {key key' : OutboxKey} {row new : OutboxEventRow}

theorem Announced.grow (h : Announced o ty w) (hw : ∀ m ∈ w.published, m ∈ w'.published) :
    Announced o ty w' := by
  obtain ⟨m, hm, hmessage⟩ := h
  exact ⟨m, hw m hm, hmessage⟩

theorem Done.grow (h : Done o ty w status) (hw : onward q w w') : Done o ty w' status := by
  cases status with
  | init => exact fun hty => (h hty).grow hw.2
  | fail => exact fun hty => hw.1.subset (h hty)
  | success => trivial

theorem exec_onward (h : World.exec q w r w') : onward q w w' := by
  refine ⟨World.exec_journal h, ?_⟩
  cases World.exec_change h with
  | same => exact fun _ => id
  | statement _ => exact fun _ => id
  | commit _ => exact fun _ => id
  | publish => exact fun m hm => List.mem_append_left _ hm

theorem update_success {f : OutboxKey → Option OutboxEventRow}
    (hrow : Function.update f key' (some new) key = some row) (hs : row.status = .success)
    (hnew : key' = key → new.status ≠ .success) : f key = some row := by
  by_cases hkey : key = key'
  · subst hkey
    rw [Function.update_self] at hrow
    cases hrow
    exact absurd hs (hnew rfl)
  · rwa [Function.update_of_ne hkey] at hrow

theorem create_success {payload : Json} {u t : Store} (hnew : status ≠ .success)
    (h : Store.exec (.createOutboxEvent key' payload status) u (some new) t)
    (hrow : t.db.outboxEvent key = some row) (hs : row.status = .success) :
    u.db.outboxEvent key = some row := by
  obtain ⟨⟨_, rfl⟩, rfl⟩ := h
  exact update_success hrow hs (fun _ => hnew)

theorem mark_success {u t : Store} (hnew : key' = key → status ≠ .success)
    (h : Store.exec (.updateOutboxEvent key' status) u (some new) t)
    (hrow : t.db.outboxEvent key = some row) (hs : row.status = .success) :
    u.db.outboxEvent key = some row := by
  obtain ⟨⟨old, _, rfl⟩, rfl⟩ := h
  exact update_success hrow hs hnew

theorem commit_success {kind : TransactionKind} {A : Type} {body : Statements A} {a : A} {s t : Store}
    (h : Makes job (.transaction kind A body)) (hr : Effect.Runs Store.exec body s (.success a) t)
    (hrow : t.db.outboxEvent key = some row) (hs : row.status = .success) :
    s.db.outboxEvent key = some row := by
  have hinit : OutboxEventStatus.init ≠ .success := by rintro ⟨⟩
  cases h with
  | order =>
    obtain ⟨u, _, _, _, hrows, _, hexec⟩ := runs_ordering (runs_effectWithTransaction.mp hr)
    exact hrows ▸ create_success hinit hexec hrow hs
  | deductStock _ _ =>
    obtain ⟨u, _, hsame, hexec⟩ := runs_deducting (runs_effectWithTransaction.mp hr)
    exact hsame.outboxEvent ▸ create_success hinit hexec hrow hs
  | payment _ _ =>
    obtain ⟨u, _, hsame, hexec⟩ := runs_paying (runs_effectWithTransaction.mp hr)
    exact hsame.outboxEvent ▸ create_success hinit hexec hrow hs
  | orderSuccess _ _ =>
    obtain ⟨u, _, _, ⟨_, hu⟩, hexec⟩ := runs_succeeding (runs_effectWithTransaction.mp hr)
    have hrow' := create_success hinit hexec hrow hs
    rw [hu] at hrow'
    exact hrow'
  | restore _ _ =>
    exact (runs_restoring (runs_effectWithTransaction.mp hr)).outboxEvent ▸ hrow

theorem exec_success (h : Makes job q) (hexec : World.exec q w r w')
    (hrow : w'.store.db.outboxEvent key = some row) (hs : row.status = .success) :
    w.store.db.outboxEvent key = some row ∨ q = .statement (.updateOutboxEvent key .success) ∧
      ∃ old, w.store.db.outboxEvent key = some old := by
  cases World.exec_change hexec with
  | same => exact .inl hrow
  | publish => exact .inl hrow
  | commit hr => exact .inl (commit_success h hr hrow hs)
  | statement hq =>
    cases h with
    | outOfStock _ _ => exact .inl (create_success (by rintro ⟨⟩) hq hrow hs)
    | paymentFailed _ _ => exact .inl (create_success (by rintro ⟨⟩) hq hrow hs)
    | setInit _ _ => exact .inl (mark_success (fun _ => by rintro ⟨⟩) hq hrow hs)
    | failed => exact .inl (mark_success (fun _ => by rintro ⟨⟩) hq hrow hs)
    | @success _ e =>
      by_cases hkey : (e.aggregateId, e.eventType) = key
      · obtain ⟨⟨old, hold, _⟩, _⟩ := hq
        exact .inr ⟨hkey ▸ rfl, old, hkey ▸ hold⟩
      · exact .inl (mark_success (fun h => absurd h hkey) hq hrow hs)
    | findOrderCreated _ _ =>
      obtain ⟨_, rfl⟩ := hq
      exact .inl hrow
    | failOrder _ _ =>
      obtain ⟨_, rfl⟩ := hq
      exact .inl hrow

theorem born_before {s t : Store} (hs : Lives s) (ht : Lives t) (hj : s.journal <+: t.journal)
    (hrow : s.db.outboxEvent (aggregateId o, ty) = some row) (hborn : Born o ty status t.journal) :
    Born o ty status s.journal := by
  obtain ⟨ph, hph⟩ := hs.stage o
  obtain ⟨_, status', hcreated, _⟩ := hph.present ty row hrow
  have hborn' : Born o ty status' s.journal := (hph.recorded ty status').mpr hcreated
  exact ht.born_unique (hborn'.grow hj) hborn ▸ hborn'

/-- A call keeps the world told if it only marks a row when what its event asks for is done. -/
theorem call_told (hk : Knows job w.store.journal) (h : Makes job q) (hw : Told w)
    (hexec : World.exec q w r w') (hmark : ∀ o ty status, q = markCall o ty →
      Born o ty status w.store.journal → Done o ty w status) : Told w' := by
  have hon := exec_onward hexec
  have hconsistent := (makes_keeps h).exec hw.consistent hk hexec
  refine ⟨hconsistent, fun o ty row status hrow hs hborn => ?_⟩
  obtain hold | ⟨rfl, old, hold⟩ := exec_success h hexec hrow hs
  · have hborn' := born_before hw.consistent.lives hconsistent.lives hon.1 hold hborn
    exact (hw.done o ty row status hold hs hborn').grow hon
  · have hborn' := born_before hw.consistent.lives hconsistent.lives hon.1 hold hborn
    exact (hmark o ty status rfl hborn').grow hon

end Marks

section Jobs

variable {o : ℕ} {ty : OutboxEventType} {status : OutboxEventStatus} {w w' : World} {job : Job}
  {info : CreateOrderInfo} {A E : Type}

abbrev Telling (post : Exit E A → World → Prop) (p : Effect Call Call.Reply E A) (w : World) : Prop :=
  Safe World.exec Told onward onward post p w

def Owes : Poll → OutboxEventType → Prop
  | .handleInitEvents, ty => HasProducer ty
  | .handleFailedEvents, ty => ty = .orderDeductStock

theorem free_telling (hk : Knows job w.store.journal)
    (hfree : ∀ poll e, job = .event poll e → ¬ Owes poll e.eventType) :
    Telling (fun _ _ => True) job.program w := by
  refine (Safe.of_within (calls_program hk.readable) (F := fun w : World => Knows job w.store.journal)
    hk (fun _ _ _ hon hk => hk.grow hon.1) (fun c w r w' hc hw hk hexec => ?_)).mono
      (fun _ _ _ => trivial)
  have hon := exec_onward hexec
  refine ⟨⟨w, w', hexec⟩, call_told hk hc hw hexec ?_, hon, hk.grow hon.1⟩
  rintro o ty status rfl hborn
  obtain ⟨_, _, _, _, hstatus⟩ | ⟨poll, e, rfl, hkey, _⟩ := Makes.update hc
  · cases hstatus
  · obtain ⟨hid, rfl⟩ := Prod.mk.inj hkey
    obtain ⟨info, hid', _, hborn'⟩ := hk
    obtain rfl := aggregateId_inj.mp (hid.trans hid')
    obtain rfl := hw.consistent.lives.born_unique hborn hborn'
    cases poll with
    | handleInitEvents => exact fun hty => absurd hty (hfree _ e rfl)
    | handleFailedEvents => exact fun hty => absurd hty (hfree _ e rfl)

theorem event_call (poll : Poll) {q : Call} {r : q.Reply}
    (hborn : Born info.order.id ty poll.status w.store.journal)
    (h : Makes (.event poll (readEvent info ty status)) q) (hw : Told w) (hexec : World.exec q w r w')
    (hmark : q = markCall info.order.id ty → Done info.order.id ty w poll.status) :
    Told w' ∧ onward q w w' ∧ Born info.order.id ty poll.status w'.store.journal := by
  have hon := exec_onward hexec
  have hk : Knows (.event poll (readEvent info ty status)) w.store.journal := ⟨info, rfl, rfl, hborn⟩
  refine ⟨call_told hk h hw hexec ?_, hon, hborn.grow hon.1⟩
  rintro o ty' status' rfl hborn'
  obtain ⟨_, _, ⟨⟩, _⟩ | ⟨_, _, hjob, hkey, _⟩ := Makes.update h
  cases hjob
  obtain ⟨hid, rfl⟩ := Prod.mk.inj hkey
  obtain rfl := aggregateId_inj.mp hid
  obtain rfl := hw.consistent.lives.born_unique hborn hborn'
  exact hmark rfl

theorem marking_telling (poll : Poll) (hborn : Born info.order.id ty poll.status w.store.journal)
    (hdone : Done info.order.id ty w poll.status) :
    Telling (fun _ w => Born info.order.id ty poll.status w.store.journal)
      (updateStatus (readEvent info ty status) .success) w := by
  have hmakes : Makes (.event poll (readEvent info ty status)) (markCall info.order.id ty) := .success
  intro w₁ hon hw r w₂ hexec
  obtain ⟨htold, hon', hborn₂⟩ :=
    event_call poll (hborn.grow hon.1) hmakes hw hexec (fun _ => hdone.grow hon)
  refine ⟨htold, hon', ?_⟩
  cases r with
  | some v => exact hborn₂
  | none => exact hborn₂

theorem produce_telling (hborn : Born info.order.id ty .init w.store.journal) :
    Telling (fun x w => Born info.order.id ty .init w.store.journal ∧
        (x = .success () → Announced info.order.id ty w))
      (produce ty info.order.id (readEvent info ty status)) w := by
  let F : World → Prop := fun w => Born info.order.id ty .init w.store.journal
  refine Safe.retry (F := F) 3 (fun w hborn => ?_) hborn
  intro w₁ hon hw r w₂ hexec
  have hmakes : Makes (.event .handleInitEvents (readEvent info ty status)) _ := .publish rfl
  obtain ⟨htold, hon', hborn₂⟩ :=
    event_call .handleInitEvents (hborn.grow hon.1) hmakes hw hexec (by rintro ⟨⟩)
  refine ⟨htold, hon', ?_⟩
  cases r with
  | true =>
    obtain ⟨hfalse, _⟩ | rfl := hexec
    · cases hfalse
    · exact ⟨hborn₂,
        fun _ => ⟨_, List.mem_append_right _ List.mem_cons_self, rfl, rfl, info, rfl, rfl⟩⟩
  | false => exact ⟨hborn₂, by rintro ⟨⟩⟩

theorem processing_telling (hty : HasProducer ty)
    (hborn : Born info.order.id ty .init w.store.journal) :
    Telling (fun x w => Born info.order.id ty .init w.store.journal ∧ ∀ e, x ≠ .failure e)
      (processOutboxEvent (readEvent info ty status)) w := by
  rw [processing_eq hty]
  refine Safe.catchAll (Safe.flatMap ((produce_telling hborn).mono (fun x w hx => ?_)))
  obtain ⟨hborn, hsent⟩ := hx
  cases x with
  | success a =>
    refine Safe.flatMap ((marking_telling .handleInitEvents hborn (fun _ => hsent rfl)).mono
      (fun y w hborn => ?_))
    cases y with
    | success a => exact ⟨hborn, by rintro e ⟨⟩⟩
    | failure e => exact ⟨hborn, by rintro e ⟨⟩⟩
    | defect => exact ⟨hborn, by rintro e ⟨⟩⟩
  | failure e => exact ⟨hborn, by rintro e ⟨⟩⟩
  | defect => exact ⟨hborn, by rintro e ⟨⟩⟩

theorem publisher_telling (hty : HasProducer ty)
    (hborn : Born info.order.id ty .init w.store.journal) :
    Telling (fun _ _ => True) (Poll.handle .handleInitEvents (readEvent info ty status)) w := by
  let F : World → Prop := fun w => Born info.order.id ty .init w.store.journal
  refine Safe.catchAll ((Safe.retry (F := F) 3 (fun w hw => processing_telling hty hw) hborn).mono
    (fun x w hx => ?_))
  cases x with
  | success a => trivial
  | failure e => exact absurd rfl (hx.2 e)
  | defect => trivial

theorem cancelling_telling (hborn : Born info.order.id .orderDeductStock .fail w.store.journal) :
    Telling (fun _ w => Born info.order.id .orderDeductStock .fail w.store.journal)
      (executeCompensation (readEvent info .orderDeductStock status)) w := by
  let e := readEvent info .orderDeductStock status
  have hcancel : Makes (.event .handleFailedEvents e)
      (.statement (.updateOrder info.order.id .failed)) := .failOrder (by rintro ⟨⟩) rfl
  intro w₁ hon hw r w₂ hexec
  obtain ⟨htold, hon', hborn₂⟩ :=
    event_call .handleFailedEvents (hborn.grow hon.1) hcancel hw hexec (by rintro ⟨⟩)
  refine ⟨htold, hon', ?_⟩
  cases r with
  | none => exact hborn₂
  | some row =>
    obtain ⟨t, ⟨_, rfl⟩, rfl⟩ := hexec
    have hset : .orderSet info.order.id .failed ∈
        (w₁.store.after (.updateOrder info.order.id .failed) row).journal :=
      List.mem_append_right _ List.mem_cons_self
    exact marking_telling .handleFailedEvents hborn₂ (fun _ => hset)

theorem canceller_telling (hborn : Born info.order.id .orderDeductStock .fail w.store.journal) :
    Telling (fun _ _ => True)
      (Poll.handle .handleFailedEvents (readEvent info .orderDeductStock status)) w := by
  let F : World → Prop := fun w => Born info.order.id .orderDeductStock .fail w.store.journal
  have hretry : Telling (fun _ w => F w ∧ True)
      ((executeCompensation (readEvent info .orderDeductStock status)).retry 3) w :=
    Safe.retry (F := F) 3
      (fun w hw => (cancelling_telling hw).mono (fun _ _ h => ⟨h, trivial⟩)) hborn
  refine Safe.catchAll (hretry.mono (fun x w hx => ?_))
  cases x with
  | success a => trivial
  | failure e =>
    intro w₁ hon hw r w₂ hexec
    have hfailed : Makes (.event .handleFailedEvents (readEvent info .orderDeductStock status)) _ :=
      .failed
    obtain ⟨htold, hon', _⟩ := event_call .handleFailedEvents (hx.1.grow hon.1) hfailed hw
      hexec (by rintro ⟨⟩)
    refine ⟨htold, hon', ?_⟩
    cases r with
    | some v => trivial
    | none => trivial
  | defect => trivial

/-- Every job keeps the world told. -/
theorem program_telling (hk : Knows job w.store.journal) :
    Telling (fun _ _ => True) job.program w := by
  by_cases hfree : ∀ poll e, job = .event poll e → ¬ Owes poll e.eventType
  · exact free_telling hk hfree
  · push Not at hfree
    obtain ⟨poll, ⟨aggregate, ty, payload, status⟩, rfl, howes⟩ := hfree
    obtain ⟨info, hkey, hpayload, hborn⟩ := hk
    cases hkey
    cases hpayload
    cases poll with
    | handleInitEvents => exact publisher_telling howes hborn
    | handleFailedEvents =>
      obtain rfl : ty = .orderDeductStock := howes
      exact canceller_telling hborn

end Jobs

section Runs

variable {ok : Configuration → Action → Prop} {c : Configuration}

theorem Told.initial {w : World} (h : Initial w) : Told w :=
  ⟨.initial h, fun _ _ _ _ hrow => by simp [h.outboxEvent] at hrow⟩

theorem saga_telling (ok : Configuration → Action → Prop) : Sound saga ok Told onward onward where
  refl _ _ := ⟨List.prefix_refl _, fun _ => id⟩
  trans _ _ _ _ h h' := ⟨h.1.trans h'.1, fun m => h'.2 m ∘ h.2 m⟩
  env w w' hw h := by
    obtain ⟨hw', hstore⟩ := hw.consistent.poll h
    obtain ⟨_, _, _, rfl⟩ := h
    exact ⟨⟨hw', hw.done⟩, fun _ => ⟨List.prefix_refl _, fun _ => id⟩⟩
  start _ job w w' hw h := by
    obtain ⟨hw', _, hk⟩ := start_knows hw.consistent h
    obtain ⟨hstore, hpublished⟩ := start_journal h
    have hon : ∀ q, onward q w w' := fun _ => by simp [onward, hstore, hpublished]
    refine ⟨⟨hw', fun o ty row status hrow hs hborn => ?_⟩, hon, program_telling hk⟩
    rw [hstore] at hrow hborn
    exact (hw.done o ty row status hrow hs hborn).grow (hon (markCall o ty))
  call c i q r w' _ _ _ _ hg _ _ _ _ _ := hg

theorem reachable_told (h : Reachable ok c) : Told c.shared := by
  obtain ⟨w, hinit, hreach⟩ := h
  exact ((saga_telling ok).reaches (.initial hinit) hreach).1

theorem lifeEvent_cancel {o : ℕ} {e : Event} :
    lifeEvent o e = some .cancel ↔ e = .orderSet o .failed := by
  unfold lifeEvent
  split <;> (try split_ifs) <;> simp_all

theorem cancelled_stage {s : Store} {o : ℕ} {ph : Phase} (h : Life s o ph)
    (hset : .orderSet o .failed ∈ s.journal) : ph = .cancelled := by
  obtain ⟨u, v, hlife⟩ := List.append_of_mem ((mem_life (fun _ => lifeEvent_cancel)).mpr hset)
  have hrun := h.accepted
  rw [hlife] at hrun
  obtain ⟨p, _, hv⟩ := Monitor.run_append_some hrun
  obtain ⟨q, hq, hw⟩ := Monitor.run_cons_some hv
  have hcancelled : q = .cancelled := by cases p <;> cases hq <;> rfl
  have hle : .cancelled ≤ ph := hcancelled ▸ next_rises.run hw
  cases ph <;> first | rfl | exact absurd hle (by decide)

/-- No row is marked in vain: the event of a row that was created with `INIT` is in Kafka, and
the order of a row that says that its stock was lacking is `FAILED`. -/
theorem marked_done (h : Reachable anyStep c) {o : ℕ} {ty : OutboxEventType} {row : OutboxEventRow}
    (hrow : c.shared.store.db.outboxEvent (aggregateId o, ty) = some row)
    (hs : row.status = .success) :
    (HasProducer ty → .created (aggregateId o, ty) .init ∈ c.shared.store.journal →
      ∃ m ∈ c.shared.published, m.eventType = ty ∧ m.key = o ∧
        ∃ info, orderInfoOf (received m.value) = some info ∧ info.order.id = o) ∧
    (ty = .orderDeductStock → .created (aggregateId o, ty) .fail ∈ c.shared.store.journal →
      orderStatus c o = some .failed) := by
  have hdone := (reachable_told h).done o ty row
  refine ⟨fun hty hborn => hdone .init hrow hs hborn hty, fun hty hborn => ?_⟩
  obtain ⟨ph, hph⟩ := stage h o
  obtain rfl := cancelled_stage hph (hdone .fail hrow hs hborn hty)
  exact hph.status

def rare : Purchase := { tea 10 with stock := fun p => if p = 1 then some 2 else none }

theorem rare_short : rare.placed.Short := ⟨1, 3, 2, rfl, rfl, by decide⟩

/-- All three events of an order are in Kafka when it is closed, and an order that is rejected is
`FAILED` when that is marked. -/
theorem marked_done_closed : (∃ c : Configuration, Reachable anyStep c ∧
      ∀ ty, HasProducer ty → ∃ m ∈ c.shared.published, m.eventType = ty ∧ m.key = 1) ∧
    ∃ c : Configuration, Reachable anyStep c ∧
      .created (aggregateId 1, .orderDeductStock) .fail ∈ c.shared.store.journal ∧
      orderStatus c 1 = some .failed := by
  obtain ⟨w, hshows, _, _, hstaged⟩ :=
    (Purchase.staged_closed (tea_covered 10) tea_enough).reached (tea 10).initial
  obtain ⟨sc, hinfo, _, hrow, hcreated, hcancelled⟩ := Purchase.staged_cancelled rare_short
  obtain ⟨w', hshows', _, _, hstaged'⟩ := hcancelled.reached rare.initial
  refine ⟨⟨_, hstaged _ permits_anyStep, fun ty hty => ?_⟩, _, hstaged' _ permits_anyStep, ?_, ?_⟩
  · have hrow : (tea 10).closed.rows ty = some .success := by
      rcases hty with rfl | rfl | rfl <;> rfl
    have hborn : .created (aggregateId 1, ty) .init ∈ w.store.journal := by
      rw [hshows.journal]
      exact (Purchase.closed_journal hty).1
    obtain ⟨m, hm, hmty, hkey, _⟩ :=
      (marked_done (hstaged _ permits_anyStep) (hshows.row ty hrow) rfl).1 hty hborn
    exact ⟨m, hm, hmty, hkey⟩
  · exact hshows'.journal ▸ hcreated
  · have hfail : .created (aggregateId 1, .orderDeductStock) .fail ∈ w'.store.journal :=
      hshows'.journal ▸ hcreated
    have hmarked := hshows'.row .orderDeductStock hrow
    rw [hinfo] at hmarked
    exact (marked_done (hstaged' _ permits_anyStep) hmarked rfl).2 rfl hfail

end Runs

end EcommerceService.Announcements
