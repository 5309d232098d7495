import EcommerceService.SagaCalls
import EcommerceService.SagaInvariant

namespace EcommerceService.SagaSafety

open EcommerceService.Effects EcommerceService.Errors EcommerceService.Models
open EcommerceService.Database EcommerceService.Repositories EcommerceService.Backend
open EcommerceService.Services EcommerceService.Facades EcommerceService.OutboxPolling
open EcommerceService.Pool EcommerceService.OrderLife EcommerceService.Saga
open EcommerceService.TransactionEffects EcommerceService.SagaInvariant EcommerceService.SagaCalls

def Read (poll : Poll) (event : OutboxEventModel) (journal : List Event) : Prop :=
  ∃ info : CreateOrderInfo, event.aggregateId = aggregateId info.order.id ∧
    Holds event info ∧ Born info.order.id event.eventType poll.status journal

def Sent (m : Message) (journal : List Event) : Prop :=
  ∀ info, orderInfoOf (received m.value) = some info → Born info.order.id m.eventType .init journal

structure Consistent (w : World) : Prop where
  lives : Lives w.store
  message : ∀ m ∈ w.published, Sent m w.store.journal
  batch : ∀ e ∈ w.batches, Read e.1 e.2 w.store.journal

theorem Consistent.initial {w : World} (h : Initial w) : Consistent w where
  lives :=
    { stage := fun o => ⟨.absent, by simp [life, h.journal, Monitor.run], by simp [h.order]; rfl,
        fun _ _ => rfl, by simp [h.outboxEvent], by simp [h.journal, Phase.createdAs]⟩
      keys := by simp [h.outboxEvent] }
  message := by simp [h.published]
  batch := by simp [h.batches]

theorem Consistent.advance {w : World} {t : Store} (h : Consistent w) (ht : Lives t)
    (hj : w.store.journal <+: t.journal) : Consistent { w with store := t } where
  lives := ht
  message m hm info hinfo := (h.message m hm info hinfo).grow hj
  batch e he := by
    obtain ⟨info, hkey, hpayload, hborn⟩ := h.batch e he
    exact ⟨info, hkey, hpayload, hborn.grow hj⟩

theorem lives_read {s : Store} (h : Lives s) {poll : Poll} {key : OutboxKey} {row : OutboxEventRow}
    (hrow : s.db.outboxEvent key = some row) (hstatus : row.status = poll.status) :
    Read poll (OutboxEventModel.from key row) s.journal := by
  obtain ⟨aggregate, ty⟩ := key
  obtain ⟨o, rfl⟩ := h.keys _ row hrow
  obtain ⟨ph, hph⟩ := h.stage o
  obtain ⟨⟨info, hpayload, rfl⟩, status, hborn, hrs⟩ := hph.present ty row hrow
  have hpoll : status = poll.status := by
    rw [hstatus] at hrs
    refine (hrs.resolve_right ?_).symm
    cases poll <;> simp [Poll.status]
  exact ⟨info, rfl, by rw [Holds, OutboxEventModel.from, hpayload],
    (hph.recorded _ _).mpr (hpoll ▸ hborn)⟩

theorem Consistent.poll {w w' : World} (h : Consistent w) (hw : pollEvents w w') :
    Consistent w' ∧ w'.store = w.store := by
  obtain ⟨poll, rows, ⟨_, _, hrows, _⟩, rfl⟩ := hw
  refine ⟨⟨h.lives, h.message, fun e he => ?_⟩, rfl⟩
  obtain he | he := List.mem_append.mp he
  · exact h.batch e he
  · obtain ⟨⟨key, row⟩, hmem, rfl⟩ := List.mem_map.mp he
    obtain ⟨hrow, hstatus⟩ := hrows _ hmem
    exact lives_read h.lives hrow hstatus

/-- The call keeps the saga consistent wherever the fact `F` holds of the journal. -/
def Keeps (F : List Event → Prop) : Call → Prop
  | .statement q => ∀ s v t, Lives s → F s.journal → Store.exec q s (some v) t → Lives t
  | .transaction kind _ body => ∀ s a t, Lives s → F s.journal →
      Effect.Runs Store.exec body s (.success a) t →
      Lives { t with journal := t.journal ++ [.committed kind] }
  | .emit eventType key value => ∀ journal, F journal → Sent ⟨eventType, key, value⟩ journal

theorem Keeps.commit {F : List Event → Prop} {kind : TransactionKind} {A : Type}
    {body : Statements A} (hc : Keeps F (.transaction kind A body)) {w : World} {a : A} {t : Store}
    (h : Consistent w) (hF : F w.store.journal)
    (hr : Effect.Runs Store.exec body w.store (.success a) t) : Consistent (w.commit kind t) :=
  h.advance (hc _ a t h.lives hF hr) ((runs_journal hr).trans (List.prefix_append _ _))

theorem Keeps.publish {F : List Event → Prop} {eventType : OutboxEventType} {key : ℕ} {value : Json}
    (hc : Keeps F (.emit eventType key value)) {w : World} (h : Consistent w)
    (hF : F w.store.journal) : Consistent (w.publish eventType key value) := by
  have hsilent : ∀ o, ∀ e ∈ [Event.published eventType key], Silent o e := by
    simp [Silent, lifeEvent]
  have hj : w.store.journal <+: w.store.journal ++ [.published eventType key] :=
    List.prefix_append _ _
  have hlives : Lives { w.store with journal := w.store.journal ++ [.published eventType key] } :=
    h.lives.advance (o := 0) rfl (fun o _ => hsilent o) (fun _ _ => rfl) (fun _ _ _ => rfl)
      (fun _ _ => rfl) (fun ph hph => ⟨ph, hph.frame rfl (fun _ => rfl) rfl (hsilent 0)⟩)
  have h' := h.advance hlives hj
  refine ⟨h'.lives, fun m hm info hinfo => ?_, h'.batch⟩
  obtain hm | hm := List.mem_append.mp hm
  · exact h'.message m hm info hinfo
  · obtain rfl := List.mem_singleton.mp hm
    exact (hc _ hF info hinfo).grow hj

theorem Keeps.exec {F : List Event → Prop} {c : Call} (hc : Keeps F c) {w w' : World} {r : c.Reply}
    (h : Consistent w) (hF : F w.store.journal) (hw : World.exec c w r w') : Consistent w' := by
  cases World.exec_change hw with
  | same => exact h
  | statement hq => exact h.advance (hc _ _ _ h.lives hF hq) (Store.exec_journal hq)
  | commit hr => exact hc.commit h hF hr
  | publish => exact hc.publish h hF

/-- What a process knows of the journal when it starts its job. -/
def Knows : Job → List Event → Prop
  | .order _ _, _ => True
  | .message m, journal => Sent m journal
  | .event poll e, journal => Read poll e journal

theorem Knows.grow {job : Job} {journal journal' : List Event} (h : Knows job journal)
    (hj : journal <+: journal') : Knows job journal' := by
  cases job with
  | order userId items => trivial
  | message m => exact fun info hinfo => (h info hinfo).grow hj
  | event poll e =>
    obtain ⟨info, hkey, hpayload, hborn⟩ := h
    exact ⟨info, hkey, hpayload, hborn.grow hj⟩

/-- Every call of a job keeps the saga consistent, given what the job knows. -/
theorem makes_keeps {job : Job} {c : Call} (h : Makes job c) : Keeps (Knows job) c := by
  cases h with
  | order =>
    intro s info t hs _ hr
    obtain ⟨u, v, hnone, horder, hrows, hj, hexec⟩ := runs_ordering (runs_effectWithTransaction.mp hr)
    exact hs.place hnone horder hrows hj ⟨info, rfl, rfl⟩ hexec
  | @deductStock m info hty hinfo =>
    intro s a t hs hsent hr
    obtain ⟨u, v, hsame, hexec⟩ := runs_deducting (runs_effectWithTransaction.mp hr)
    exact (hs.same hsame).deduct (hsame.journal ▸ hty ▸ hsent info hinfo) ⟨info, rfl, rfl⟩ hexec
  | @outOfStock m info hty hinfo =>
    exact fun s v t hs hsent hexec => hs.reject (hty ▸ hsent info hinfo) ⟨info, rfl, rfl⟩ hexec
  | findOrderCreated _ _ =>
    intro s v t hs _ hexec
    obtain ⟨_, rfl⟩ := hexec
    exact hs.same ⟨rfl, rfl, List.append_nil _⟩
  | @setInit m info _ _ =>
    intro s v t hs _ hexec
    refine hs.update hexec (fun born hborn => .inl ?_)
    obtain ⟨ph, hph⟩ := hs.stage info.order.id
    exact (createdAs_orderCreated ((hph.recorded _ _).mp hborn)).symm
  | @payment m info hty hinfo =>
    intro s a t hs hsent hr
    obtain ⟨u, v, hsame, hexec⟩ := runs_paying (runs_effectWithTransaction.mp hr)
    exact (hs.same hsame).debit (hsame.journal ▸ hty ▸ hsent info hinfo) ⟨info, rfl, rfl⟩ hexec
  | @paymentFailed m info hty hinfo =>
    exact fun s v t hs hsent hexec => hs.refuse (hty ▸ hsent info hinfo) ⟨info, rfl, rfl⟩ hexec
  | @orderSuccess m info hty hinfo =>
    intro s a t hs hsent hr
    obtain ⟨u, order, v, hset, hexec⟩ := runs_succeeding (runs_effectWithTransaction.mp hr)
    exact hs.pay (hty ▸ hsent info hinfo) ⟨info, rfl, rfl⟩ hset hexec
  | @publish e _ _ =>
    rintro journal ⟨info, _, hpayload, hborn⟩ info' hinfo
    have hvalue : orderInfoOf (received e.payload) = some info' := hinfo
    rw [hpayload, (payload_decodes info).2.2] at hvalue
    cases hvalue
    exact hborn
  | success => exact fun _ _ _ hs _ hexec => hs.update hexec (fun _ _ => .inr rfl)
  | @restore e info hty hpayload =>
    rintro s a t hs ⟨info', _, hpayload', hborn⟩ hr
    obtain rfl := hpayload.unique hpayload'
    exact hs.restore (hty ▸ hborn) (runs_restoring (runs_effectWithTransaction.mp hr))
  | @failOrder e info hty hpayload =>
    rintro s v t hs ⟨info', _, hpayload', hborn⟩ hexec
    obtain rfl := hpayload.unique hpayload'
    exact hs.cancel hborn hty hexec
  | failed =>
    rintro s v t hs ⟨info, hkey, _, hborn⟩ hexec
    refine hs.update hexec (fun born hb => .inl ?_)
    rw [hkey] at hb
    exact hs.born_unique hborn hb

theorem start_knows {job : Job} {w w' : World} (hw : Consistent w) (h : job.start w w') :
    Consistent w' ∧ w'.store = w.store ∧ Knows job w'.store.journal := by
  cases job with
  | order userId items =>
    cases h
    exact ⟨hw, rfl, trivial⟩
  | message m =>
    obtain ⟨hm, rfl⟩ := h
    exact ⟨hw, rfl, hw.message m hm⟩
  | event poll e =>
    obtain ⟨he, rfl⟩ := h
    exact ⟨⟨hw.lives, hw.message, fun e' he' => hw.batch e' (List.mem_of_mem_erase he')⟩, rfl,
      hw.batch _ he⟩

theorem Knows.readable {job : Job} {journal : List Event} (h : Knows job journal) : Readable job := by
  cases job with
  | event poll e =>
    obtain ⟨info, _, hpayload, _⟩ := h
    exact ⟨info, hpayload⟩
  | _ => trivial

def grows (_ : Call) (w w' : World) : Prop := w.store.journal <+: w'.store.journal

theorem program_safe {job : Job} {w : World} (h : Knows job w.store.journal) :
    Safe World.exec Consistent grows grows (fun _ _ => True) job.program w := by
  refine (Safe.of_within (calls_program h.readable) (F := fun w : World => Knows job w.store.journal) h
    (fun _ _ _ hj hk => hk.grow hj) (fun c w r w' hc hw hk hexec => ?_)).mono (fun _ _ _ => trivial)
  have hj := World.exec_journal hexec
  exact ⟨⟨w, w', hexec⟩, (makes_keeps hc).exec hw hk hexec, hj, hk.grow hj⟩

theorem saga_sound (ok : Configuration → Action → Prop) : Sound saga ok Consistent grows grows where
  refl _ _ := List.prefix_refl _
  trans _ _ _ _ := List.IsPrefix.trans
  env w w' hw h := by
    obtain ⟨hw', hstore⟩ := hw.poll h
    exact ⟨hw', fun _ => by simp [grows, hstore]⟩
  start _ job w w' hw h := by
    obtain ⟨hw', hstore, hk⟩ := start_knows hw h
    exact ⟨hw', fun _ => by simp [grows, hstore], program_safe hk⟩
  call c i q r w' _ _ _ _ hg _ _ _ _ _ := hg

/-- In every run each order is at one stage of its life, and all tables agree on it. -/
theorem reachable_consistent {ok : Configuration → Action → Prop} {c : Configuration}
    (h : Reachable ok c) : Consistent c.shared := by
  obtain ⟨w, hw, hc⟩ := h
  exact ((saga_sound ok).reaches (.initial hw) hc).1

end EcommerceService.SagaSafety
