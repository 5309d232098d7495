import EcommerceService.Consumers
import EcommerceService.Redelivery

namespace EcommerceService.Consumption

open EcommerceService.Effects EcommerceService.Errors EcommerceService.Models
open EcommerceService.Database EcommerceService.Repositories EcommerceService.Backend
open EcommerceService.Services EcommerceService.Facades EcommerceService.Pool
open EcommerceService.TransactionEffects EcommerceService.Saga EcommerceService.SagaCalls
open EcommerceService.SagaInvariant EcommerceService.SagaSafety EcommerceService.SagaRuns
open EcommerceService.Consumers

/-- What the rest of the saga may do meanwhile. -/
structure Others (w w' : World) : Prop where
  journal : w.store.journal <+: w'.store.journal
  published : w.published <+: w'.published
  consistent : Consistent w'

def execAmong (c : Call) (w : World) (r : c.Reply) (w' : World) : Prop :=
  ∃ v, Others w v ∧ World.exec c v r w'

/-- The handling of the message, which began with the journal `before`, has a durable
result in the journal `after`: its effect is committed, or a row records its failure, or the
handling has requested its retry. -/
def Lasting (m : Message) (before after : List Event) : Prop :=
  ∃ info, orderInfoOf (received m.value) = some info ∧
    match m.eventType with
    | .orderCreated => .committed (.deductStock info.order.id) ∈ after ∨
        .created (aggregateId info.order.id, .orderDeductStock) .fail ∈ after ∨
        ∃ old added, after = before ++ added ∧
          .updated (aggregateId info.order.id, .orderCreated) old .init ∈ added
    | .orderDeductStock => .committed (.payment info.order.id) ∈ after ∨
        .created (aggregateId info.order.id, .orderPayment) .fail ∈ after
    | .orderPayment => .committed (.orderSuccess info.order.id) ∈ after
    | _ => False

/-- One partition of a topic. `position` is the offset that is delivered next or is being
handled, and `resumed` the one the consumer began with after its last start. Two histories:
the offsets that were handled to a durable result, and those whose effect succeeded. -/
structure Partition where
  committed : ℕ
  position : ℕ
  resumed : ℕ
  running : Option Handling
  world : World
  durable : Set ℕ
  succeeded : Set ℕ

/-- A task on the partition. A message is handled at its position, and the commit of an
offset may be reported to have failed. -/
def exec : (q : Task) → Partition → q.Reply → Partition → Prop
  | .lock _, P, _, P' => P' = P
  | .unlock _, P, _, P' => P' = P
  | .facade m, P, x, P' => ∃ w, Effect.Runs execAmong (Job.message m).program P.world x w ∧
      P' = { P with
        world := w
        durable := {k | k ∈ P.durable ∨
          (k = P.position ∧ Lasting m P.world.store.journal w.store.journal)}
        succeeded := {k | k ∈ P.succeeded ∨ (k = P.position ∧ x = .success ())} }
  | .commitOffsets offset, P, committed, P' =>
      (committed = false ∧ P' = P) ∨ P' = { P with committed := offset }

def log (topic : OutboxEventType) (inPartition : ℕ → Bool) (w : World) : List Message :=
  w.published.filter (fun m => m.eventType = topic ∧ inPartition m.key = true)

inductive Move where
  | others
  | deliver
  | task
  | finish
  | reject
  | restart
deriving DecidableEq, Repr

/-- The steps of the partition. After a handling that rejects, the transport delivers the
message again or goes on; after a restart, at any moment, the consumer resumes at the last
committed offset. -/
inductive Step (topic : OutboxEventType) (inPartition : ℕ → Bool) :
    Partition → Move → Partition → Prop
  | others {P : Partition} {w : World} : Others P.world w →
      Step topic inPartition P .others { P with world := w }
  | deliver {P : Partition} {m : Message} {handler : Message → Handling} : P.running = none →
      (log topic inPartition P.world)[P.position]? = some m → handlerOf topic = some handler →
      Step topic inPartition P .deliver
        { P with running := some (ConsumerInterceptor.intercept P.position (handler m)) }
  | task {P P' : Partition} {q : Task} {k : q.Reply → Handling} {r : q.Reply} :
      P.running = some (.perform q k) → exec q P r P' →
      Step topic inPartition P .task { P' with running := some (k r) }
  | finish {P : Partition} : P.running = some (.succeed ()) →
      Step topic inPartition P .finish { P with running := none, position := P.position + 1 }
  | reject {P : Partition} {position : ℕ} : P.running = some .die →
      (position = P.position ∨ position = P.position + 1) →
      Step topic inPartition P .reject { P with running := none, position := position }
  | restart {P : Partition} : Step topic inPartition P .restart
      { P with running := none, position := P.committed, resumed := P.committed }

structure Start (P : Partition) : Prop where
  committed : P.committed = 0
  position : P.position = 0
  resumed : P.resumed = 0
  running : P.running = none
  world : ∃ c, Reachable anyStep c ∧ c.shared = P.world
  durable : P.durable = ∅
  succeeded : P.succeeded = ∅

/-- A message is only delivered when each one before it, since the last restart, has got its
lock and the effect of its facade has succeeded. -/
def Steady (P : Partition) : Move → Prop
  | .deliver => ∀ k, P.resumed ≤ k → k < P.position → k ∈ P.succeeded
  | _ => True

def anyMove (_ : Partition) (_ : Move) : Prop := True

inductive Reached (topic : OutboxEventType) (inPartition : ℕ → Bool) (ok : Partition → Move → Prop) :
    Partition → Prop
  | start {P : Partition} : Start P → Reached topic inPartition ok P
  | step {P P' : Partition} {move : Move} : Reached topic inPartition ok P →
      Step topic inPartition P move P' → ok P move → Reached topic inPartition ok P'

section Facade

variable {m : Message} {info : CreateOrderInfo} {w w' : World} {x : Exit Error Unit}

theorem exec_published {c : Call} {r : c.Reply} (h : World.exec c w r w') :
    w.published <+: w'.published := by
  cases World.exec_change h with
  | same => exact List.prefix_refl _
  | statement _ => exact List.prefix_refl _
  | commit _ => exact List.prefix_refl _
  | publish => exact List.prefix_append _ _

theorem runs_grow {E A : Type} {p : Effect Call Call.Reply E A} {x : Exit E A}
    (h : Effect.Runs execAmong p w x w') :
    w.store.journal <+: w'.store.journal ∧ w.published <+: w'.published := by
  induction h with
  | succeed _ _ => exact ⟨List.prefix_refl _, List.prefix_refl _⟩
  | fail _ _ => exact ⟨List.prefix_refl _, List.prefix_refl _⟩
  | die _ => exact ⟨List.prefix_refl _, List.prefix_refl _⟩
  | perform hc _ ih =>
    obtain ⟨v, hv, hc⟩ := hc
    exact ⟨(hv.journal.trans (World.exec_journal hc)).trans ih.1,
      (hv.published.trans (exec_published hc)).trans ih.2⟩

theorem facade_others (hw : Consistent w) (hm : m ∈ w.published)
    (h : Effect.Runs execAmong (Job.message m).program w x w') : Others w w' := by
  have hknows : Knows (.message m) w.store.journal := hw.message m hm
  have hsafe := SagaSafety.program_safe hknows
  obtain ⟨hj, hp⟩ := runs_grow h
  refine ⟨hj, hp, (hsafe.runs hw h (fun c s r t hc => ?_)).1⟩
  obtain ⟨v, hv, hc⟩ := hc
  exact ⟨v, hv.journal, hv.consistent, hc⟩

theorem arming_lasts (hborn : Born info.order.id .orderCreated .init w.store.journal)
    (h : Effect.Runs execAmong (ProductFacade.setOrderCreatedEventToInit info) w (.success ()) w') :
    ∃ old added, w'.store.journal = w.store.journal ++ added ∧
      .updated (aggregateId info.order.id, .orderCreated) old .init ∈ added := by
  obtain ⟨r, v, ⟨v₀, hv₀, hfind⟩, hend⟩ := Effect.runs_perform.mp h
  match r with
  | none => cases (Effect.runs_fail.mp hend).1
  | some none =>
    obtain ⟨t, ⟨hnone, _⟩, _⟩ := hfind
    obtain ⟨row, hrow, _⟩ := hv₀.consistent.lives.born_row (hborn.grow hv₀.journal)
    cases hnone.trans hrow
  | some (some row) =>
    obtain ⟨r, v₁, ⟨v₂, hv₂, hupdate⟩, hend⟩ := Effect.runs_perform.mp hend
    cases r with
    | none => cases (Effect.runs_fail.mp hend).1
    | some row =>
      obtain ⟨t, ⟨⟨old, hold, rfl⟩, rfl⟩, rfl⟩ := hupdate
      obtain ⟨_, rfl⟩ := Effect.runs_succeed.mp hend
      obtain ⟨added, hadded⟩ := (hv₀.journal.trans (World.exec_journal hfind)).trans hv₂.journal
      refine ⟨old.status, added ++ [_], ?_, List.mem_append_right _ List.mem_cons_self⟩
      rw [← List.append_assoc, hadded]
      exact Store.after_update hold

theorem transaction_lasts {A : Type} {kind : TransactionKind} {effect : Statements A}
    {y : Exit Error A} (h : Effect.Runs execAmong (PrismaService.transaction kind effect) w y w') :
    w.store.journal <+: w'.store.journal ∧
      ((∃ a, y = .success a) ∧ .committed kind ∈ w'.store.journal ∨ ∃ e, y = .failure e) := by
  refine ⟨(runs_grow h).1, ?_⟩
  obtain ⟨r, v, ⟨v₀, hv₀, hexec⟩, hend⟩ := Effect.runs_perform.mp h
  cases r with
  | resolved a =>
    obtain ⟨t, _, rfl⟩ := hexec
    obtain ⟨rfl, rfl⟩ := Effect.runs_succeed.mp hend
    exact .inl ⟨⟨a, rfl⟩, List.mem_append_right _ List.mem_cons_self⟩
  | rejected e => exact .inr ⟨_, (Effect.runs_fail.mp hend).1⟩

theorem creating_lasts {aggregateId : String} {eventType : OutboxEventType} {payload : Json}
    {status : OutboxEventStatus} (h : Effect.Runs execAmong (autocommit
      (OutboxEventService.createOutboxEvent aggregateId eventType payload status)).asVoid w
      (.success ()) w') : .created (aggregateId, eventType) status ∈ w'.store.journal := by
  obtain ⟨r, v, ⟨v₀, hv₀, hinsert⟩, hend⟩ := Effect.runs_perform.mp h
  cases r with
  | none => cases (Effect.runs_fail.mp hend).1
  | some row =>
    obtain ⟨t, ⟨_, rfl⟩, rfl⟩ := hinsert
    obtain ⟨_, rfl⟩ := Effect.runs_succeed.mp hend
    exact List.mem_append_right _ List.mem_cons_self

theorem deducting_lasts (hborn : Born info.order.id .orderCreated .init w.store.journal)
    (h : Effect.Runs execAmong (ProductFacade.processOrderDeductStock info) w (.success ()) w') :
    .committed (.deductStock info.order.id) ∈ w'.store.journal ∨
    .created (aggregateId info.order.id, .orderDeductStock) .fail ∈ w'.store.journal ∨
    ∃ old added, w'.store.journal = w.store.journal ++ added ∧
      .updated (aggregateId info.order.id, .orderCreated) old .init ∈ added := by
  obtain ⟨y, u, ht, hrest⟩ := Effect.runs_catchAll.mp h
  obtain ⟨hj, ⟨⟨a, rfl⟩, hcommitted⟩ | ⟨e, rfl⟩⟩ := transaction_lasts ht
  · obtain ⟨_, rfl⟩ := Effect.runs_succeed.mp hrest
    exact .inl hcommitted
  · rw [Effect.handle] at hrest
    split at hrest
    · exact .inr (.inl (creating_lasts hrest))
    · obtain ⟨old, added, hadded, hmem⟩ := arming_lasts (hborn.grow hj) hrest
      obtain ⟨before, hbefore⟩ := hj
      refine .inr (.inr ⟨old, before ++ added, ?_, List.mem_append_right _ hmem⟩)
      rw [hadded, ← hbefore, List.append_assoc]

theorem paying_lasts
    (h : Effect.Runs execAmong (UserFacade.processOrderPayment info) w (.success ()) w') :
    .committed (.payment info.order.id) ∈ w'.store.journal ∨
    .created (aggregateId info.order.id, .orderPayment) .fail ∈ w'.store.journal := by
  obtain ⟨y, u, ht, hrest⟩ := Effect.runs_catchAll.mp h
  obtain ⟨x, v, ht, hvoid⟩ := Effect.runs_flatMap.mp ht
  obtain ⟨_, ⟨⟨a, rfl⟩, hcommitted⟩ | ⟨e, rfl⟩⟩ := transaction_lasts ht
  · obtain ⟨rfl, rfl⟩ := Effect.runs_succeed.mp hvoid
    obtain ⟨_, rfl⟩ := Effect.runs_succeed.mp hrest
    exact .inl hcommitted
  · obtain ⟨rfl, rfl⟩ := Effect.runs_fail.mp hvoid
    exact .inr (creating_lasts hrest)

theorem closing_lasts
    (h : Effect.Runs execAmong (OrderFacade.processOrderSuccess info).asVoid w (.success ()) w') :
    .committed (.orderSuccess info.order.id) ∈ w'.store.journal := by
  obtain ⟨order, ht, _⟩ := Effect.runs_map_success.mp h
  obtain ⟨_, ⟨_, hcommitted⟩ | ⟨e, he⟩⟩ := transaction_lasts ht
  · exact hcommitted
  · cases he

/-- When the effect of the facade succeeds, the handling of the message has a durable result. -/
theorem facade_lasts (hw : Consistent w) (hm : m ∈ w.published)
    (hhandler : handlerOf m.eventType ≠ none)
    (h : Effect.Runs execAmong (Job.message m).program w (.success ()) w') :
    Lasting m w.store.journal w'.store.journal := by
  have hsent := hw.message m hm
  obtain ⟨ty, key, value⟩ := m
  have hread : ∀ facade : CreateOrderInfo → Service Unit,
      Effect.Runs execAmong (withOrderInfo (received value) facade) w (.success ()) w' →
      ∃ info, orderInfoOf (received value) = some info ∧
        Effect.Runs execAmong (facade info) w (.success ()) w' := by
    intro facade hr
    rw [withOrderInfo] at hr
    split at hr
    · rename_i info hinfo
      exact ⟨info, hinfo, hr⟩
    · cases (Effect.runs_die.mp hr).1
  cases ty with
  | orderCreated =>
    obtain ⟨info, hinfo, hr⟩ := hread _ h
    exact ⟨info, hinfo, deducting_lasts (hsent info hinfo) hr⟩
  | orderDeductStock =>
    obtain ⟨info, hinfo, hr⟩ := hread _ h
    exact ⟨info, hinfo, paying_lasts hr⟩
  | orderPayment =>
    obtain ⟨info, hinfo, hr⟩ := hread _ h
    exact ⟨info, hinfo, closing_lasts hr⟩
  | orderSuccess => exact absurd rfl hhandler
  | orderFailed => exact absurd rfl hhandler
  | other text => exact absurd rfl hhandler

theorem Others.refl (hw : Consistent w) : Others w w := ⟨List.prefix_refl _, List.prefix_refl _, hw⟩

theorem step_published {c c' : Configuration} {l : Action} (h : Pool.Step saga c l c') :
    c.shared.published <+: c'.shared.published := by
  refine step_shared (R := fun w w' => w.published <+: w'.published) (fun w w' _ hp => ?_)
    (fun _ _ _ _ => exec_published) h
  exact hp ▸ List.prefix_refl _

theorem Others.of_reaches {c c' : Configuration} (hc : Reachable anyStep c)
    (h : Pool.Reaches saga anyStep c c') : Others c.shared c'.shared := by
  obtain ⟨w, hw, hr⟩ := hc
  refine ⟨reaches_journal h, ?_, reachable_consistent ⟨w, hw, hr.trans h⟩⟩
  induction h with
  | refl => exact List.prefix_refl _
  | tail _ hn ih =>
    obtain ⟨l, hs, _⟩ := hn
    exact ih.trans (step_published hs)

theorem runs_among (hw : Consistent w) (hm : m ∈ w.published)
    (h : Effect.Runs World.exec (Job.message m).program w x w') :
    Effect.Runs execAmong (Job.message m).program w x w' := by
  have hknows : Knows (.message m) w.store.journal := hw.message m hm
  have hsafe := SagaSafety.program_safe hknows
  have halone := Safe.runs_alone (fun _ w => List.prefix_refl w.store.journal) hsafe hw h
  exact halone.mono (fun c w r w' hc => ⟨w, .refl hc.1, hc.2⟩)

end Facade

section Tasks

def Own (offset : ℕ) (m : Message) : Task → Prop
  | .facade m' => m' = m
  | .commitOffsets offset' => offset' = offset
  | _ => True

variable {offset : ℕ} {m : Message}

theorem tasks_processOrder :
    Effect.Confined Effect.anyAnswer (Own offset m) (fun _ => True) (processOrder m) := by
  refine Effect.confined_perform.mpr ⟨rfl, fun x _ => ?_⟩
  cases x with
  | success a => exact Effect.confined_succeed
  | failure e => exact Effect.confined_fail.mpr trivial
  | defect => exact Effect.confined_die

theorem tasks_runWithMurlock (key : OutboxEventType) {fn : Handling}
    (h : Effect.Confined Effect.anyAnswer (Own offset m) (fun _ => True) fn) :
    Effect.Confined Effect.anyAnswer (Own offset m) (fun _ => True) (runWithMurlock key fn) := by
  refine Effect.Confined.catchAll (Q := fun _ => True)
    (Effect.confined_perform.mpr ⟨trivial, fun obtained _ => ?_⟩)
    (fun _ _ => Effect.confined_succeed)
  cases obtained with
  | false => exact Effect.confined_fail.mpr trivial
  | true =>
    have hfn : Effect.Confined Effect.anyAnswer (Own offset m) (fun _ => True)
        (fn.promise Error.unknownException) := h.promise trivial
    refine (hfn.map.catchAll (fun _ _ => Effect.confined_succeed)).flatMap (fun result => ?_)
    refine Effect.confined_perform.mpr ⟨trivial, fun released _ => ?_⟩
    split
    · exact Effect.confined_succeed
    · exact Effect.confined_fail.mpr trivial

theorem tasks_handler {topic : OutboxEventType} {handler : Message → Handling}
    (h : handlerOf topic = some handler) :
    Effect.Confined Effect.anyAnswer (Own offset m) (fun _ => True) (handler m) := by
  cases topic with
  | orderCreated =>
    cases h
    exact tasks_runWithMurlock _ tasks_processOrder
  | orderDeductStock =>
    cases h
    exact tasks_runWithMurlock _ tasks_processOrder
  | orderPayment =>
    cases h
    exact tasks_processOrder
  | orderSuccess => cases h
  | orderFailed => cases h
  | other text => cases h

theorem tasks_intercept {value : Handling}
    (h : Effect.Confined Effect.anyAnswer (Own offset m) (fun _ => True) value) :
    Effect.Confined Effect.anyAnswer (Own offset m) (fun _ => True)
      (ConsumerInterceptor.intercept offset value) := by
  refine Effect.Confined.catchAll (Q := fun _ => True) (h.tap (fun _ => ?_))
    (fun _ _ => Effect.confined_succeed)
  refine Effect.confined_perform.mpr ⟨rfl, fun committed _ => ?_⟩
  cases committed with
  | true => exact Effect.confined_succeed
  | false => exact Effect.confined_fail.mpr trivial

end Tasks

section Runs

variable {topic : OutboxEventType} {inPartition : ℕ → Bool} {P P' : Partition} {move : Move}

/-- What is being handled is the message at `position`, and every message before it has
had a durable result. -/
def Handles (topic : OutboxEventType) (inPartition : ℕ → Bool) (position : ℕ) (w : World)
    (durable : Set ℕ) (p : Handling) : Prop :=
  (∀ k < position, k ∈ durable) ∧ handlerOf topic ≠ none ∧
  ∃ m, (log topic inPartition w)[position]? = some m ∧
    Effect.Confined Effect.anyAnswer (Own position m) (fun _ => True) p

structure Kept (topic : OutboxEventType) (inPartition : ℕ → Bool) (P : Partition) : Prop where
  consistent : Consistent P.world
  below : ∀ k < P.committed, k ∈ P.durable
  lasting : P.succeeded ⊆ P.durable
  resumed : P.resumed ≤ P.committed ∧ P.resumed ≤ P.position
  handles : ∀ p, P.running = some p → Handles topic inPartition P.position P.world P.durable p

theorem Kept.start (h : Start P) : Kept topic inPartition P where
  consistent := by
    obtain ⟨c, hc, hw⟩ := h.world
    exact hw ▸ reachable_consistent hc
  below k hk := by simp [h.committed] at hk
  lasting := by simp [h.succeeded]
  resumed := by simp [h.resumed]
  handles p hp := by simp [h.running] at hp

theorem mem_log {w : World} {m : Message} {offset : ℕ}
    (h : (log topic inPartition w)[offset]? = some m) :
    m ∈ w.published ∧ m.eventType = topic := by
  have hmem := List.mem_of_getElem? h
  simp only [log, List.mem_filter, decide_eq_true_eq] at hmem
  exact ⟨hmem.1, hmem.2.1⟩

theorem log_grow {w w' : World} (hw : w.published <+: w'.published) {m : Message} {offset : ℕ}
    (h : (log topic inPartition w)[offset]? = some m) :
    (log topic inPartition w')[offset]? = some m := by
  have hlog : log topic inPartition w <+: log topic inPartition w' := hw.filter _
  obtain ⟨new, hnew⟩ := hlog
  obtain ⟨hlt, _⟩ := List.getElem?_eq_some_iff.mp h
  rw [← hnew, List.getElem?_append_left hlt, h]

theorem Handles.others {position : ℕ} {w w' : World} {durable durable' : Set ℕ} {p : Handling}
    (h : Handles topic inPartition position w durable p) (hw : Others w w') (hd : durable ⊆ durable') :
    Handles topic inPartition position w' durable' p := by
  obtain ⟨hbefore, hhandler, m, hm, hp⟩ := h
  exact ⟨fun k hk => hd (hbefore k hk), hhandler, m, log_grow hw.published hm, hp⟩

theorem Handles.next {position : ℕ} {w : World} {durable : Set ℕ} {q : Task} {k : q.Reply → Handling}
    (h : Handles topic inPartition position w durable (.perform q k)) (r : q.Reply) :
    Handles topic inPartition position w durable (k r) := by
  obtain ⟨hbefore, hhandler, m, hm, hp⟩ := h
  exact ⟨hbefore, hhandler, m, hm, (Effect.confined_perform.mp hp).2 r trivial⟩

theorem Kept.others (h : Kept topic inPartition P) {w : World} (hw : Others P.world w) :
    Kept topic inPartition { P with world := w } where
  consistent := hw.consistent
  below := h.below
  lasting := h.lasting
  resumed := h.resumed
  handles p hp := (h.handles p hp).others hw subset_rfl

theorem Kept.deliver (h : Kept topic inPartition P) {m : Message} {handler : Message → Handling}
    (hm : (log topic inPartition P.world)[P.position]? = some m)
    (hhandler : handlerOf topic = some handler) (hok : Steady P .deliver) : Kept topic inPartition
      { P with running := some (ConsumerInterceptor.intercept P.position (handler m)) } where
  consistent := h.consistent
  below := h.below
  lasting := h.lasting
  resumed := h.resumed
  handles p hp := by
    cases hp
    refine ⟨fun k hk => ?_, by simp [hhandler], m, hm, tasks_intercept (tasks_handler hhandler)⟩
    by_cases hk' : k < P.committed
    · exact h.below k hk'
    · exact h.lasting (hok k (h.resumed.1.trans (not_lt.mp hk')) hk)

theorem Kept.facade (h : Kept topic inPartition P) {m : Message} {k : Exit Error Unit → Handling}
    {x : Exit Error Unit} (hrun : P.running = some (.perform (.facade m) k))
    (hexec : exec (.facade m) P x P') : Kept topic inPartition { P' with running := some (k x) } := by
  obtain ⟨w, hr, rfl⟩ := hexec
  have hnext := (h.handles _ hrun).next x
  obtain ⟨_, hhandler, m', hm, hp⟩ := h.handles _ hrun
  obtain rfl : m = m' := (Effect.confined_perform.mp hp).1
  obtain ⟨hpublished, hty⟩ := mem_log hm
  have hothers := facade_others h.consistent hpublished hr
  refine ⟨hothers.consistent, fun n hn => .inl (h.below n hn), ?_, h.resumed, fun p hp => ?_⟩
  · rintro n (hn | ⟨rfl, rfl⟩)
    · exact .inl (h.lasting hn)
    · exact .inr ⟨rfl, facade_lasts h.consistent hpublished (hty ▸ hhandler) hr⟩
  · cases hp
    exact hnext.others hothers (fun n hn => .inl hn)

theorem Kept.task (h : Kept topic inPartition P) {q : Task} {k : q.Reply → Handling} {r : q.Reply}
    (hrun : P.running = some (.perform q k)) (hexec : exec q P r P') :
    Kept topic inPartition { P' with running := some (k r) } := by
  have hhandles := h.handles _ hrun
  have hsame : ∀ p, some (k r) = some p →
      Handles topic inPartition P.position P.world P.durable p := by
    rintro p ⟨⟩
    exact hhandles.next r
  cases q with
  | lock key =>
    obtain rfl := hexec
    exact ⟨h.consistent, h.below, h.lasting, h.resumed, hsame⟩
  | unlock key =>
    obtain rfl := hexec
    exact ⟨h.consistent, h.below, h.lasting, h.resumed, hsame⟩
  | facade m => exact h.facade hrun hexec
  | commitOffsets offset =>
    obtain ⟨hbefore, _, m, _, hp⟩ := hhandles
    obtain rfl : offset = P.position := (Effect.confined_perform.mp hp).1
    obtain ⟨_, rfl⟩ | rfl := hexec
    · exact ⟨h.consistent, h.below, h.lasting, h.resumed, hsame⟩
    · exact ⟨h.consistent, hbefore, h.lasting, ⟨h.resumed.2, h.resumed.2⟩, hsame⟩

theorem Kept.step (h : Kept topic inPartition P) (hs : Step topic inPartition P move P')
    (hok : Steady P move) : Kept topic inPartition P' := by
  obtain ⟨hle, hle'⟩ := h.resumed
  cases hs with
  | others hw => exact h.others hw
  | deliver _ hm hhandler => exact h.deliver hm hhandler hok
  | task hrun hexec => exact h.task hrun hexec
  | finish _ =>
    exact ⟨h.consistent, h.below, h.lasting, ⟨hle, hle'.trans (Nat.le_succ _)⟩, fun p hp => nomatch hp⟩
  | @reject position _ hpos =>
    refine ⟨h.consistent, h.below, h.lasting, ⟨hle, ?_⟩, fun p hp => nomatch hp⟩
    show P.resumed ≤ position
    omega
  | restart => exact ⟨h.consistent, h.below, h.lasting, ⟨le_rfl, le_rfl⟩, fun p hp => nomatch hp⟩

theorem Reached.kept (h : Reached topic inPartition Steady P) : Kept topic inPartition P := by
  induction h with
  | start hstart => exact .start hstart
  | step _ hs hok ih => exact ih.step hs hok

/-- In a steady run every message below the committed offset was handled to a durable result. -/
theorem no_consumed_message_lost (h : Reached topic inPartition Steady P) {k : ℕ}
    (hk : k < P.committed) : k ∈ P.durable := h.kept.below k hk

/-- The partition with one message handled: the lock is obtained, the transaction of the
facade is rejected, and its retry is requested. -/
theorem Reached.handled {ok : Partition → Move → Prop} (h : Reached .orderCreated inPartition ok P)
    (hok : ∀ P move, move ≠ .deliver → ok P move) (hdeliver : ok P .deliver) (hrun : P.running = none)
    (hw : Consistent P.world)
    (hm : (log .orderCreated inPartition P.world)[P.position]? = some (messageOf firstOrder .orderCreated)) :
    ∃ P', Reached .orderCreated inPartition ok P' ∧ P'.running = none ∧ P'.resumed = P.resumed ∧
      P'.committed = P.position ∧ P'.position = P.position + 1 ∧ P.position ∈ P'.succeeded ∧
      P.succeeded ⊆ P'.succeeded ∧ P'.world.published = P.world.published ∧ Consistent P'.world := by
  obtain ⟨hpublished, _⟩ := mem_log hm
  obtain ⟨row, hrow, _⟩ := hw.lives.born_row (hw.message _ hpublished _ Redelivery.firstOrder_read)
  obtain ⟨w', hruns, hsame, _⟩ := Redelivery.rejected_arms Redelivery.AnyReply
    (fun _ _ _ => trivial) rfl Redelivery.firstOrder_read hrow (e := none) rfl (.inl rfl) trivial
  have hfacade := runs_among hw hpublished (hruns.mono (fun _ _ _ _ h => h.1))
  have hothers := facade_others hw hpublished hfacade
  have hstart := h.step (.deliver hrun hm rfl) hdeliver
  have hlock := hstart.step (.task (r := true) rfl rfl) (hok _ _ (by decide))
  have hrun₁ := hlock.step (.task (r := (Exit.success () : Exit Error Unit)) rfl ⟨w', hfacade, rfl⟩)
    (hok _ _ (by decide))
  have hunlock := hrun₁.step (.task (r := true) rfl rfl) (hok _ _ (by decide))
  have hcommit := hunlock.step (.task (r := true) rfl (.inr rfl)) (hok _ _ (by decide))
  have hfinish := hcommit.step (.finish rfl) (hok _ _ (by decide))
  exact ⟨_, hfinish, rfl, rfl, rfl, rfl, .inr ⟨rfl, rfl⟩, fun k hk => .inl hk, hsame,
    hothers.consistent⟩

def doubled (w : World) : Partition := ⟨0, 0, 0, none, w, ∅, ∅⟩

theorem doubled_start : ∃ w, Start (doubled w) ∧ Consistent w ∧
    w.published = [messageOf firstOrder .orderCreated, messageOf firstOrder .orderCreated] := by
  have htwice := ((Purchase.staged_read_twice (b := tea 10)).send (.inl rfl) rfl).send (.inl rfl) rfl
  obtain ⟨w, _, hpublished, _, hstaged⟩ := htwice.reached (tea 10).initial
  have hreach := hstaged _ permits_anyStep
  exact ⟨w, ⟨rfl, rfl, rfl, rfl, ⟨_, hreach, rfl⟩, rfl, rfl⟩, reachable_consistent hreach, hpublished⟩

theorem doubled_log {w : World} {k : ℕ} (hk : k < 2)
    (hw : w.published = [messageOf firstOrder .orderCreated, messageOf firstOrder .orderCreated]) :
    (log .orderCreated (fun _ => true) w)[k]? = some (messageOf firstOrder .orderCreated) := by
  have hlog : log .orderCreated (fun _ => true) w =
      [messageOf firstOrder .orderCreated, messageOf firstOrder .orderCreated] := by
    simp [log, hw, messageOf]
  rw [hlog]
  obtain rfl | rfl : k = 0 ∨ k = 1 := by omega
  · rfl
  · rfl

theorem no_consumed_message_lost_handled : ∃ P, Reached .orderCreated (fun _ => true) Steady P ∧
    P.committed = 1 ∧ 0 ∈ P.durable := by
  obtain ⟨w, hstart, hw, hpublished⟩ := doubled_start
  have hok : ∀ P move, move ≠ .deliver → Steady P move := by
    intro P move hne
    cases move <;> trivial
  have hbegin : Steady (doubled w) .deliver := fun k _ hk => absurd hk (Nat.not_lt_zero k)
  obtain ⟨P, hP, hrun, hresumed, _, hposition, hfirst, _, hsame, hw'⟩ :=
    (Reached.start hstart).handled hok hbegin rfl hw (doubled_log Nat.zero_lt_two hpublished)
  have hsteady : Steady P .deliver := by
    intro k _ hk
    obtain rfl : k = 0 := by
      rw [hposition] at hk
      exact Nat.lt_one_iff.mp hk
    exact hfirst
  obtain ⟨P', hP', _, _, hcommitted, _⟩ := hP.handled hok hsteady hrun hw'
    (doubled_log (hposition ▸ Nat.one_lt_two) (hsame.trans hpublished))
  have hone : P'.committed = 1 := hcommitted.trans hposition
  exact ⟨P', hP', hone, no_consumed_message_lost hP' (by rw [hone]; decide)⟩

/-- Neither handling gets its lock. Both offsets are committed, and nothing was done for the
message at the first one. -/
theorem consumed_message_lost : ¬ ∀ (topic : OutboxEventType) (inPartition : ℕ → Bool) (P : Partition)
    (k : ℕ), Reached topic inPartition anyMove P → k < P.committed → k ∈ P.durable := by
  intro h
  obtain ⟨w, hstart, hw, hpublished⟩ := doubled_start
  have hzero : Reached .orderCreated (fun _ => true) anyMove (doubled w) := .start hstart
  have hfirst := hzero.step (.deliver rfl (doubled_log Nat.zero_lt_two hpublished) rfl) trivial
  have hlock := hfirst.step (.task (r := false) rfl rfl) trivial
  have hcommit := hlock.step (.task (r := true) rfl (.inr rfl)) trivial
  have hfinish := hcommit.step (.finish rfl) trivial
  have hsecond := hfinish.step (.deliver rfl (doubled_log Nat.one_lt_two hpublished) rfl) trivial
  have hlock' := hsecond.step (.task (r := false) rfl rfl) trivial
  have hcommit' := hlock'.step (.task (r := true) rfl (.inr rfl)) trivial
  exact h _ _ _ 0 hcommit' Nat.zero_lt_one

end Runs

end EcommerceService.Consumption
