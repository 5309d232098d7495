import EcommerceService.SagaSafety
import EcommerceService.SagaRuns

namespace EcommerceService.Compensation

open EcommerceService.Effects EcommerceService.Errors EcommerceService.Models
open EcommerceService.Database EcommerceService.Repositories EcommerceService.Backend
open EcommerceService.Services EcommerceService.OutboxPolling EcommerceService.TransactionEffects
open EcommerceService.Pool EcommerceService.Saga EcommerceService.SagaCalls
open EcommerceService.SagaInvariant EcommerceService.SagaSafety EcommerceService.SagaRuns

def paymentKey (o : ℕ) : OutboxKey := (aggregateId o, .orderPayment)

def Restores (o : ℕ) : Call → Prop
  | .transaction kind _ _ => kind = .restoreStock o
  | _ => False

def Fails : (q : Call) → q.Reply → Prop
  | .statement _, r => r = none
  | _, _ => False

/-- The row of the failed payment still says `FAIL`, and no process is about to mark it. -/
def Due (o : ℕ) (c : Configuration) : Prop :=
  (∃ payload, c.shared.store.db.outboxEvent (paymentKey o) = some ⟨payload, .fail⟩) ∧
  ∀ i, ¬ Waits c i (markCall o .orderPayment)

/-- The stock of `o` is only given back when that is due, and the marking of the row that
comes after it neither fails nor is cut off by the end of its process. -/
def Orderly (o : ℕ) (c : Configuration) : Action → Prop
  | .call _ q r => (Restores o q → Due o c) ∧ (q = markCall o .orderPayment → ¬ Fails q r)
  | .stop i => ¬ Waits c i (markCall o .orderPayment)
  | _ => True

/-- How often the stock of `o` has been given back. -/
def restorations (o : ℕ) (c : Configuration) : ℕ :=
  c.shared.store.journal.count (.committed (.restoreStock o))

section Rows

variable {o : ℕ} {job : Job} {q : Call} {w w' : World} {r : q.Reply}

def Marked (o : ℕ) (w : World) : Prop :=
  ∃ payload, w.store.db.outboxEvent (paymentKey o) = some ⟨payload, .success⟩

def Leaves (o : ℕ) (q : Call) : Prop :=
  (∃ job, Makes job q) ∧
  ∀ status, q = .statement (.updateOutboxEvent (paymentKey o) status) → status = .success

theorem exec_statement_marked {q : Query} {v : q.Answer} {s t : Store}
    (hq : ∀ status, q = .updateOutboxEvent (paymentKey o) status → status = .success)
    (h : Store.exec q s (some v) t)
    (hs : ∃ payload, s.db.outboxEvent (paymentKey o) = some ⟨payload, .success⟩) :
    ∃ payload, t.db.outboxEvent (paymentKey o) = some ⟨payload, .success⟩ := by
  obtain ⟨hallows, rfl⟩ := h
  obtain ⟨payload, hrow⟩ := hs
  cases q with
  | createOutboxEvent key _ _ =>
    have hne : paymentKey o ≠ key := by
      rintro rfl
      cases hrow.symm.trans hallows.1
    exact ⟨payload, (Function.update_of_ne hne _ _).trans hrow⟩
  | updateOutboxEvent key status =>
    by_cases hkey : paymentKey o = key
    · subst hkey
      obtain rfl := hq status rfl
      obtain ⟨old, _, rfl⟩ := hallows
      exact ⟨old.payload, Function.update_self _ _ _⟩
    · exact ⟨payload, (Function.update_of_ne hkey _ _).trans hrow⟩
  | _ => exact ⟨payload, hrow⟩

theorem exec_marked (hq : Leaves o q) (h : World.exec q w r w') (hw : Marked o w) : Marked o w' := by
  obtain ⟨⟨job, hmakes⟩, hupdate⟩ := hq
  cases World.exec_change h with
  | same => exact hw
  | statement hexec =>
    exact exec_statement_marked (fun status hs => hupdate status (congrArg Call.statement hs)) hexec hw
  | commit hr =>
    obtain ⟨payload, hrow⟩ := hw
    exact ⟨payload, (hmakes.creates hr).row _ _ hrow⟩
  | publish => exact hw

theorem exec_mark {r : (markCall o .orderPayment).Reply} (h : World.exec (markCall o .orderPayment) w r w')
    (hr : ¬ Fails (markCall o .orderPayment) r) : Marked o w' := by
  cases r with
  | none => exact absurd rfl hr
  | some v =>
    obtain ⟨t, ⟨⟨old, _, rfl⟩, rfl⟩, rfl⟩ := h
    exact ⟨old.payload, Function.update_self _ _ _⟩

theorem creates_count {s t : Store} (h : Creates s t) (kind : TransactionKind) :
    t.journal.count (.committed kind) = s.journal.count (.committed kind) := by
  obtain ⟨w, hj, hw⟩ := h.journal
  have hnone : Event.committed kind ∉ w := by
    intro hmem
    obtain ⟨_, _, he, _⟩ | ⟨_, _, he⟩ := hw _ hmem
    · cases he
    · cases he
  rw [hj, List.count_append, List.count_eq_zero.mpr hnone, Nat.add_zero]

theorem statement_count {q : Query} {v : q.Answer} {s t : Store} (h : Store.exec q s (some v) t)
    (kind : TransactionKind) :
    t.journal.count (.committed kind) = s.journal.count (.committed kind) := by
  obtain ⟨_, rfl⟩ := h
  have hnone : Event.committed kind ∉ q.events s.db := by
    intro hmem
    cases q with
    | createOutboxEvent _ _ _ => cases List.mem_singleton.mp hmem
    | updateOrder _ _ => cases List.mem_singleton.mp hmem
    | updateOutboxEvent key _ =>
      obtain ⟨old, _, he⟩ := Option.map_eq_some_iff.mp (Option.mem_toList.mp hmem)
      cases he
    | _ => cases hmem
  simp only [Store.after]
  rw [List.count_append, List.count_eq_zero.mpr hnone, Nat.add_zero]

theorem commit_count {kind : TransactionKind} {A : Type} {body : Statements A} {a : A} {t : Store}
    (hq : Leaves o (.transaction kind A body))
    (h : Effect.Runs Store.exec body w.store (.success a) t) :
    (w.commit kind t).store.journal.count (.committed (.restoreStock o)) =
      w.store.journal.count (.committed (.restoreStock o)) +
        (if kind = .restoreStock o then 1 else 0) := by
  obtain ⟨⟨job, hmakes⟩, _⟩ := hq
  simp only [World.commit, List.count_append, creates_count (hmakes.creates h), List.count_singleton]
  simp

theorem exec_count (hq : Leaves o q) (h : World.exec q w r w') :
    w'.store.journal.count (.committed (.restoreStock o)) =
      w.store.journal.count (.committed (.restoreStock o)) ∨
    (Restores o q ∧ w'.store.journal.count (.committed (.restoreStock o)) =
      w.store.journal.count (.committed (.restoreStock o)) + 1) := by
  cases World.exec_change h with
  | same => exact .inl rfl
  | statement hexec => exact .inl (statement_count hexec _)
  | @commit kind A body a w t hr =>
    rw [commit_count hq hr]
    by_cases hkind : kind = .restoreStock o
    · exact .inr ⟨hkind, by rw [if_pos hkind]⟩
    · exact .inl (by rw [if_neg hkind, Nat.add_zero])
  | publish => exact .inl (by simp [World.publish])

end Rows

section Rule

variable {o : ℕ}

def MarksNext (o : ℕ) (q : Call) (_ : q.Reply) (p : Service Unit) : Prop :=
  Restores o q → ∃ k, p = .perform (markCall o .orderPayment) k

def Answers (o : ℕ) (q : Call) (r : q.Reply) : Prop := Possible q r ∧ (q = markCall o .orderPayment → ¬ Fails q r)

/-- The handling of the failed payment: the stock is given back, then the row is marked. -/
theorem compensation_follows {info : CreateOrderInfo} {status : OutboxEventStatus} :
    Effect.Follows (Answers info.order.id) (Leaves info.order.id) (MarksNext info.order.id)
      (Poll.handle .handleFailedEvents
        ⟨aggregateId info.order.id, .orderPayment, (Json.order info).stringify.stringify, status⟩) := by
  let e : OutboxEventModel :=
    ⟨aggregateId info.order.id, .orderPayment, (Json.order info).stringify.stringify, status⟩
  have hmark : Leaves info.order.id (markCall info.order.id .orderPayment) := by
    refine ⟨⟨.event .handleFailedEvents e, .success⟩, fun status h => ?_⟩
    injection h with h
    injection h with _ h
    exact h.symm
  have hrestore : Leaves info.order.id (.transaction (.restoreStock info.order.id) Unit
      (PrismaService.effectWithTransaction (restoring info))) :=
    ⟨⟨.event .handleFailedEvents e, .restore rfl rfl⟩, fun _ h => nomatch h⟩
  have hrest : ∀ k : (markCall info.order.id .orderPayment).Reply → Service Unit, (∀ v, k (some v) = .succeed ()) →
      Effect.Follows (Answers info.order.id) (Leaves info.order.id) (MarksNext info.order.id)
        (.perform (markCall info.order.id .orderPayment) k) := by
    refine fun k hk => ⟨hmark, fun r hr => ?_⟩
    cases r with
    | none => exact absurd rfl (hr.2 rfl)
    | some v =>
      rw [hk v]
      exact ⟨fun h => h.elim, trivial⟩
  refine ⟨hrestore, fun r hr => ?_⟩
  match r with
  | .resolved a => exact ⟨fun _ => ⟨_, rfl⟩, hrest _ (fun _ => rfl)⟩
  | .rejected none => exact ⟨fun _ => ⟨_, rfl⟩, hrest _ (fun _ => rfl)⟩
  | .rejected (some e) =>
    -- The restoring transaction is only ever rejected with a conflict.
    have hconflict := rejection_conflict (restoring_confined info) hr.1
    match e with
    | .application .conflict code message => exact ⟨fun _ => ⟨_, rfl⟩, hrest _ (fun _ => rfl)⟩
    | .application .auth code message => cases hconflict
    | .application .notFound code message => cases hconflict
    | .application .badRequest code message => cases hconflict
    | .unknownException => exact ⟨fun _ => ⟨_, rfl⟩, hrest _ (fun _ => rfl)⟩
    | .error message => exact ⟨fun _ => ⟨_, rfl⟩, hrest _ (fun _ => rfl)⟩

def Compensates (o : ℕ) : Job → Prop
  | .event .handleFailedEvents e => e.aggregateId = aggregateId o ∧ e.eventType = .orderPayment
  | _ => False

theorem makes_leaves {job : Job} {journal : List Event} {q : Call} (hk : Knows job journal)
    (hjob : ¬ Compensates o job) (h : Makes job q) : Leaves o q ∧ ¬ Restores o q := by
  refine ⟨⟨⟨job, h⟩, fun status hq => ?_⟩, fun hr => ?_⟩
  · subst hq
    obtain ⟨_, _, _, hkey, _⟩ | ⟨poll, e, rfl, hkey, hstatus | ⟨rfl, _⟩⟩ := h.update
    · cases (Prod.mk.inj hkey).2
    · exact hstatus
    · exact absurd (Prod.mk.inj hkey.symm) hjob
  · cases h with
    | @restore e info hty hpayload =>
      obtain ⟨info', hkey, hpayload', _⟩ := hk
      obtain rfl := hpayload.unique hpayload'
      injection hr with hid
      exact hjob ⟨hid ▸ hkey, hty⟩
    | _ => cases hr

theorem program_follows {job : Job} {journal : List Event} (hk : Knows job journal) :
    Effect.Follows (Answers o) (Leaves o) (MarksNext o) job.program := by
  by_cases hjob : Compensates o job
  · cases job with
    | order userId orderItems => exact hjob.elim
    | message m => exact hjob.elim
    | event poll e =>
      cases poll with
      | handleInitEvents => exact hjob.elim
      | handleFailedEvents =>
        obtain ⟨info, hkey, hpayload, _⟩ := hk
        obtain ⟨hid, hty⟩ := hjob
        obtain rfl := aggregateId_inj.mp (hid.symm.trans hkey)
        obtain ⟨aggregate, ty, payload, status⟩ := e
        cases hid
        cases hty
        cases hpayload
        exact compensation_follows
  · exact Effect.Follows.of_within (calls_program hk.readable) (fun _ _ h => h.1)
      (fun _ hq => (makes_leaves hk hjob hq).1)
      (fun _ _ _ hq hr => absurd hr (makes_leaves hk hjob hq).2)

end Rule

section Runs

variable {o : ℕ} {c c' : Configuration} {l : Action}

/-- The stock of `o` has been given back at most once, and then its row is marked or a
process is about to mark it. -/
structure Settled (o : ℕ) (c : Configuration) : Prop where
  follow : AllFollow (Answers o) (Leaves o) (MarksNext o) c
  once : restorations o c ≤ 1
  marked : restorations o c ≠ 0 → Marked o c.shared ∨ ∃ i, Waits c i (markCall o .orderPayment)

theorem Settled.not_restored (h : Settled o c) (hdue : Due o c) : restorations o c = 0 := by
  by_contra hne
  obtain ⟨⟨_, hfail⟩, hfree⟩ := hdue
  obtain ⟨_, hsuccess⟩ | ⟨i, hi⟩ := h.marked hne
  · cases hfail.symm.trans hsuccess
  · exact hfree i hi

theorem marked_other {i : ℕ} {w : World} {v : Option (Job × Service Unit)}
    (h : Marked o c.shared ∨ ∃ i, Waits c i (markCall o .orderPayment)) (hi : ¬ Waits c i (markCall o .orderPayment))
    (hw : Marked o c.shared → Marked o w) :
    Marked o w ∨ ∃ i', Waits (⟨w, Function.update c.pool i v⟩ : Configuration) i' (markCall o .orderPayment) := by
  refine h.imp hw (fun ⟨i', hi'⟩ => ⟨i', hi'.other ?_⟩)
  rintro rfl
  exact hi hi'

theorem Settled.call (h : Settled o c) {i : ℕ} {job : Job} {q : Call} {k : q.Reply → Service Unit}
    {r : q.Reply} {w : World} (hi : c.pool i = some (job, .perform q k))
    (hexec : World.exec q c.shared r w) (hok : Orderly o c (.call i q r)) :
    Settled o ⟨w, Function.update c.pool i (some (job, k r))⟩ := by
  obtain ⟨hleaves, hnext⟩ := h.follow i job _ hi
  obtain ⟨hmarks, hfollow⟩ := hnext r ⟨⟨_, _, hexec⟩, hok.2⟩
  refine ⟨h.follow.update w hfollow, ?_, fun hne => ?_⟩
  · obtain hcount | ⟨hrestores, hcount⟩ := exec_count (o := o) hleaves hexec
    · exact hcount.trans_le h.once
    · have hzero : restorations o c = 0 := h.not_restored (hok.1 hrestores)
      exact (hcount.trans (congrArg (· + 1) hzero)).le
  · obtain hcount | ⟨hrestores, _⟩ := exec_count (o := o) hleaves hexec
    · have hmarked := h.marked (fun hzero => hne (hcount.trans hzero))
      by_cases hq : q = markCall o .orderPayment
      · subst hq
        exact .inl (exec_mark hexec (hok.2 rfl))
      · exact marked_other hmarked (fun hw => hq (hw.unique hi).symm) (exec_marked hleaves hexec)
    · obtain ⟨k', hk'⟩ := hmarks hrestores
      exact .inr ⟨i, job, k', by rw [← hk']; exact Function.update_self _ _ _⟩

theorem Settled.step (hc : Consistent c.shared) (h : Settled o c) (hs : Step saga c l c')
    (hok : Orderly o c l) : Settled o c' := by
  cases hs with
  | env henv =>
    obtain ⟨_, hstore⟩ := hc.poll henv
    refine ⟨h.follow, ?_, fun hne => ?_⟩
    · simpa only [restorations, hstore] using h.once
    · simp only [restorations, hstore] at hne
      exact (h.marked hne).imp (fun hm => by simpa only [Marked, hstore] using hm) id
  | @start i job w hi hstart =>
    obtain ⟨_, hstore, hk⟩ := start_knows hc hstart
    refine ⟨h.follow.update _ (program_follows hk), ?_, fun hne => ?_⟩
    · simpa only [restorations, hstore] using h.once
    · simp only [restorations, hstore] at hne
      refine marked_other (h.marked hne) ?_ (fun hm => by simpa only [Marked, hstore] using hm)
      rintro ⟨_, _, hi'⟩
      cases hi.symm.trans hi'
  | call hi hexec => exact h.call hi hexec hok
  | @stop i =>
    exact ⟨h.follow.stop _ i, h.once, fun hne => marked_other (h.marked hne) hok id⟩

theorem Reachable.settled (h : Reachable (Orderly o) c) : Settled o c := by
  obtain ⟨w, hinit, hreach⟩ := h
  induction hreach with
  | refl =>
    have hzero : restorations o (quiet w) = 0 := by simp [restorations, quiet, hinit.journal]
    refine ⟨fun i j p hi => ?_, hzero ▸ Nat.zero_le 1, fun hne => absurd hzero hne⟩
    cases hi
  | tail hreach hn ih =>
    obtain ⟨l, hs, hok⟩ := hn
    exact ih.step (reachable_consistent ⟨w, hinit, hreach⟩) hs hok

/-- In an orderly run the stock of an order is given back at most once. -/
theorem restored_at_most_once (h : Reachable (Orderly o) c) :
    c.shared.store.journal.count (.committed (.restoreStock o)) ≤ 1 := (Reachable.settled h).once

theorem permits_orderly (o : ℕ) : Permits (Orderly o) where
  env _ := trivial
  start _ _ _ := trivial
  call i job q k w r hcalm := by
    refine ⟨fun hr => ?_, fun hq hfails => ?_⟩
    · cases q with
      | transaction kind A body =>
        refine ⟨hcalm o hr, fun i' hwait => ?_⟩
        obtain ⟨_, hp⟩ := waits_alone hwait
        cases hp
      | _ => exact hr.elim
    · subst hq
      exact hcalm hfails
  stop i job w p hp := by
    intro hwait
    obtain ⟨k, hk⟩ := waits_alone hwait
    exact hp _ k hk

theorem restored_at_most_once_compensated : ∃ c : Configuration, Reachable (Orderly 1) c ∧
    .committed (.restoreStock 1) ∈ c.shared.store.journal ∧
    c.shared.store.journal.count (.committed (.restoreStock 1)) ≤ 1 := by
  obtain ⟨w, hshows, _, _, hstaged⟩ := 
    (Purchase.staged_compensated (tea_covered 0) tea_dear).reached (tea 0).initial
  have hreach := hstaged _ (permits_orderly 1)
  refine ⟨_, hreach, ?_, restored_at_most_once hreach⟩
  show _ ∈ w.store.journal
  rw [hshows.journal]
  exact List.mem_append_left _ (List.mem_append_right _ List.mem_cons_self)

theorem restore_exec {sc : Scene} {w : World} (h : sc.Shows w.store)
    (hitems : sc.info.orderItems ≠ []) : ∃ t,
      saga.exec (.transaction (.restoreStock sc.info.order.id) Unit
        (PrismaService.effectWithTransaction (restoring sc.info))) w (.resolved ())
        (w.commit (.restoreStock sc.info.order.id) t) ∧
      sc.restored.Shows (w.commit (.restoreStock sc.info.order.id) t).store := by
  obtain ⟨t, hbody, ht⟩ := restored_runs h hitems
  exact ⟨t, ⟨t, hbody, rfl⟩, ht.logged _⟩

/-- Two pollers have read the same failed payment, and both give its stock back. -/
theorem restored_twice : ¬ ∀ (c : Configuration) (o : ℕ), Reachable anyStep c →
    c.shared.store.journal.count (.committed (.restoreStock o)) ≤ 1 := by
  intro h
  let event := readEvent firstOrder .orderPayment .fail
  let job : Job := .event .handleFailedEvents event
  have hread := (Purchase.staged_unpaid (tea_covered 0) tea_dear).poll .handleFailedEvents .orderPayment rfl
    Purchase.unpaid_only
  have hreads := hread.poll .handleFailedEvents .orderPayment rfl Purchase.unpaid_only
  obtain ⟨w, hshows, _, hbatches, hstaged⟩ := hreads.reached (tea 0).initial
  obtain ⟨w₀, hinit, hreach⟩ := hstaged _ permits_anyStep
  have hmem : (.handleFailedEvents, event) ∈ w.batches := by
    rw [hbatches]
    exact List.mem_cons_self
  have hmem' : (.handleFailedEvents, event) ∈ w.batches.erase (.handleFailedEvents, event) := by
    have hlist : w.batches = [(.handleFailedEvents, event), (.handleFailedEvents, event)] := hbatches
    rw [hlist, List.erase_cons_head]
    exact List.mem_cons_self
  let w₁ : World := { w with batches := w.batches.erase (.handleFailedEvents, event) }
  let w₂ : World := { w₁ with batches := w₁.batches.erase (.handleFailedEvents, event) }
  obtain ⟨t₀, hexec₀, hshows₀⟩ := restore_exec (w := w₂) hshows (tea 0).info_filled
  obtain ⟨t₁, hexec₁, hshows₁⟩ := restore_exec hshows₀ (tea 0).info_filled
  have hstart₀ := hreach.start (i := 0) (j := job) (s := w₁) rfl ⟨hmem, rfl⟩ trivial
  have hstart₁ := hstart₀.start (i := 1) (j := job) (s := w₂) rfl ⟨hmem', rfl⟩ trivial
  have hcall₀ := hstart₁.call (i := 0) (j := job) rfl hexec₀ trivial
  have hcall₁ := hcall₀.call (i := 1) (j := job) rfl hexec₁ trivial
  have hjournal : ((w₂.commit (.restoreStock 1) t₀).commit (.restoreStock 1) t₁).store.journal =
      (tea 0).unpaid.journal ++ [.committed (.restoreStock 1)] ++ [.committed (.restoreStock 1)] :=
    hshows₁.journal
  have honce : ((w₂.commit (.restoreStock 1) t₀).commit (.restoreStock 1) t₁).store.journal.count
      (.committed (.restoreStock 1)) ≤ 1 := h _ 1 ⟨w₀, hinit, hcall₁⟩
  rw [hjournal] at honce
  simp only [List.count_append, List.count_singleton_self] at honce
  omega

end Runs

end EcommerceService.Compensation
