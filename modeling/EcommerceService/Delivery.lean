import Mathlib.Algebra.Order.Group.Multiset
import EcommerceService.Poller

namespace EcommerceService.Delivery

open EcommerceService.Effects EcommerceService.Errors EcommerceService.JsonText
open EcommerceService.Payloads EcommerceService.ForEach EcommerceService.Poller
open EcommerceService.Decimals
open EcommerceService.Models (OutboxEventStatus)
open EcommerceService.OutboxPolling (Poll)

section Code

/-- What a handler has done outside of the table: a message that the broker took, a compensation
that was carried out, and one that failed with a conflict and was taken for done. -/
inductive Deed where
  | sent (topic : String) (key : Option Value) (value : String)
  | compensated (event : OutboxEventModel) (payload : Value)
  | conflicted (event : OutboxEventModel) (payload : Value)

/-- The table, and what has been done so far. -/
structure Outbox where
  table : Table
  done : List Deed

/-- What a call does. When its promise is rejected, or the restoring transaction fails, it may have
been done and its answer lost. -/
def Does : (c : Call) → List Deed → c.Reply → List Deed → Prop
  | .emit topic key value, done, sent, done' =>
      done' = done ++ [.sent topic key value] ∨ (sent = false ∧ done' = done)
  | .update _ _ _, done, _, done' => done' = done
  | .compensate event payload, done, .carriedOut, done' => done' = done ++ [.compensated event payload]
  | .compensate event payload, done, .swallowed, done' => done' = done ++ [.conflicted event payload] ∨
      done' = done ++ [.compensated event payload, .conflicted event payload]
  | .compensate event payload, done, .rejected, done' => done' = done ∨
      done' = done ++ [.compensated event payload]
  | .compensate _ _, done, .pending, done' => done' = done

def Outbox.exec (stocks : Decimal → Bool) (c : Call) (s : Outbox) (r : c.Reply) (t : Outbox) : Prop :=
  Table.exec stocks c s.table r t.table ∧ Does c s.done r t.done

def Carried : (c : Call) → c.Reply → Prop
  | .emit _ _ _, sent => sent = true
  | .update _ _ _, resolved => resolved = true
  | .compensate _ _, settlement => settlement = .carriedOut

def Outbox.smooth (stocks : Decimal → Bool) (c : Call) (s : Outbox) (r : c.Reply) (t : Outbox) : Prop :=
  Outbox.exec stocks c s r t ∧ Carried c r

/-- A batch that `handleEvents` has read, to its end or as far as it has come. -/
structure Round where
  poll : Poll
  rows : List OutboxEvent
  before : Outbox
  after : Outbox

/-- The polls of the service, one batch after the other. Between two batches anyone may write
the table. A batch may stop on its way, as the process may. -/
inductive Polls (s : Outbox) : List Round → Outbox → Prop
  | nil : Polls s [] s
  | others {rounds : List Round} {t t' : Outbox} : Polls s rounds t → t'.done = t.done → Polls s rounds t'
  | round {rounds : List Round} {t u : Outbox} {poll : Poll} {rows : List OutboxEvent}
      {stocks : Decimal → Bool} {tasks : EventTasks} : Polls s rounds t → t.table.Finds poll.status rows →
      Steps 5 (handle poll) (Outbox.exec stocks) (start (rows.map OutboxEventModel.from), t) (tasks, u) →
      Polls s (rounds ++ [⟨poll, rows, t, u⟩]) u

end Code

section Deeds

/-- What the handler of the event is there to do: to send its payload under its own type and the
id of its order, or to compensate it. -/
def deed : Poll → OutboxEventModel → Option Deed
  | .handleInitEvents, event =>
      if event.eventType ∈ keyedTypes then
        ((OutboxPollingService.parsePayload event.payload).bind orderId).map
          (fun key => .sent event.eventType key event.payload)
      else none
  | .handleFailedEvents, event =>
      (OutboxPollingService.rawPayload event.payload).map (.compensated event)

def conflict : Poll → OutboxEventModel → Option Deed
  | .handleInitEvents, _ => none
  | .handleFailedEvents, event =>
      if event.eventType = OutboxEventTypes.orderPayment then
        (OutboxPollingService.rawPayload event.payload).map (.conflicted event)
      else none

def Settles (poll : Poll) (event : OutboxEventModel) (d : Deed) : Prop :=
  deed poll event = some d ∨ conflict poll event = some d

/-- The event has been settled since `before`. A paid order has nothing to send. -/
def Earned (poll : Poll) (event : OutboxEventModel) (before : List Deed) (s : Outbox) : Prop :=
  (poll = .handleInitEvents ∧ event.eventType = OutboxEventTypes.orderSuccess) ∨
    ∃ new, s.done = before ++ new ∧ ∃ d ∈ new, Settles poll event d

def Since (before : List Deed) (s : Outbox) : Prop := ∃ new, s.done = before ++ new

def Grows (s t : Outbox) : Prop := ∃ new, t.done = s.done ++ new

/-- What one call of the handler of the event does: it settles the event, or it writes the status of
its row, `SUCCESS` only when the event has been settled. -/
def Works (poll : Poll) (before : List Deed) (event : OutboxEventModel) (s t : Outbox) : Prop :=
  (∃ new, t.done = s.done ++ new ∧ ∀ d ∈ new, Settles poll event d) ∧
    (t.table = s.table ∨ ∃ status, t.table = s.table.update (eventKey event) status ∧
      ((status = .fail ∧ poll = .handleFailedEvents) ∨
        (status = .success ∧ Earned poll event before s)))

variable {poll : Poll} {event : OutboxEventModel} {before : List Deed} {s t : Outbox}
  {stocks : Decimal → Bool} {d : Deed}

theorem Grows.refl (s : Outbox) : Grows s s := ⟨[], by simp⟩

theorem Grows.trans {u : Outbox} (h : Grows s t) (h' : Grows t u) : Grows s u := by
  obtain ⟨new, hnew⟩ := h
  obtain ⟨new', hnew'⟩ := h'
  exact ⟨new ++ new', by rw [hnew', hnew, List.append_assoc]⟩

theorem Works.grows (h : Works poll before event s t) : Grows s t := ⟨h.1.choose, h.1.choose_spec.1⟩

theorem Since.grows (h : Since before s) (hg : Grows s t) : Since before t := by
  obtain ⟨new, hnew⟩ := h
  obtain ⟨new', hnew'⟩ := hg
  exact ⟨new ++ new', by rw [hnew', hnew, List.append_assoc]⟩

theorem Earned.grows (h : Earned poll event before s) (hg : Grows s t) :
    Earned poll event before t := by
  obtain hfree | ⟨new, hnew, d, hd, hdeed⟩ := h
  · exact .inl hfree
  · obtain ⟨new', hnew'⟩ := hg
    exact .inr ⟨new ++ new', by rw [hnew', hnew, List.append_assoc], d, List.mem_append_left _ hd, hdeed⟩

abbrev Handled (stocks : Decimal → Bool) (poll : Poll) (before : List Deed) (event : OutboxEventModel)
    (post : Exit Error Unit → Outbox → Prop) : Handling Unit → Outbox → Prop :=
  Pool.Safe (Outbox.exec stocks) (Since before) (fun _ => Grows) (fun _ => Works poll before event) post

theorem works_of_done {new : List Deed} (htable : t.table = s.table) (hdone : t.done = s.done ++ new)
    (hnew : ∀ d ∈ new, Settles poll event d) : Works poll before event s t :=
  ⟨⟨new, hdone, hnew⟩, .inl htable⟩

theorem works_idle (htable : t.table = s.table) (hdone : t.done = s.done) : Works poll before event s t :=
  ⟨⟨[], by simpa using hdone, by simp⟩, .inl htable⟩

theorem earned_of_done {new : List Deed} (hs : Since before s) (hdone : t.done = s.done ++ new)
    (hd : d ∈ new) (hsettles : Settles poll event d) : Earned poll event before t := by
  obtain ⟨old, hold⟩ := hs
  exact .inr ⟨old ++ new, by rw [hdone, hold, List.append_assoc], d, List.mem_append_right _ hd, hsettles⟩

def Resolved (poll : Poll) (before : List Deed) (event : OutboxEventModel) (x : Exit Error Unit)
    (t : Outbox) : Prop := x ≠ .defect ∧ (x = .success () → Earned poll event before t)

theorem Resolved.failure {e : Error} : Resolved poll before event (.failure e) t :=
  ⟨by rintro ⟨⟩, by rintro ⟨⟩⟩

theorem handled_emit {topic : String} {key : Option Value}
    (hdeed : deed poll event = some (.sent topic key event.payload)) :
    Handled stocks poll before event (Resolved poll before event)
      (tryPromise (.emit topic key event.payload)) s := by
  intro s₁ _ hs sent s₂ ⟨htable, hdoes⟩
  have hsettles : ∀ d ∈ [Deed.sent topic key event.payload], Settles poll event d := by
    simpa using .inl hdeed
  obtain hdone | ⟨rfl, hdone⟩ := hdoes
  · have hworks : Works poll before event s₁ s₂ := works_of_done htable hdone hsettles
    refine ⟨hs.grows hworks.grows, hworks, ?_⟩
    cases sent with
    | true => exact ⟨by rintro ⟨⟩, fun _ => earned_of_done hs hdone List.mem_cons_self (hsettles _ List.mem_cons_self)⟩
    | false => exact .failure
  · have hworks : Works poll before event s₁ s₂ := works_idle htable hdone
    exact ⟨hs.grows hworks.grows, hworks, .failure⟩

theorem handled_compensate {payload : Value}
    (hraw : OutboxPollingService.rawPayload event.payload = some payload) :
    Handled stocks .handleFailedEvents before event (Resolved .handleFailedEvents before event)
      (tryPromise (.compensate event payload)) s := by
  intro s₁ _ hs settlement s₂ ⟨⟨hcompensates, htable⟩, hdoes⟩
  have hdeed : Settles .handleFailedEvents event (.compensated event payload) := .inl (by simp [deed, hraw])
  cases settlement with
  | carriedOut =>
    have hworks : Works .handleFailedEvents before event s₁ s₂ :=
      works_of_done htable hdoes (by simpa using hdeed)
    exact ⟨hs.grows hworks.grows, hworks, by rintro ⟨⟩,
      fun _ => earned_of_done hs hdoes List.mem_cons_self hdeed⟩
  | swallowed =>
    have htype : event.eventType = OutboxEventTypes.orderPayment := hcompensates
    have hconflict : Settles .handleFailedEvents event (.conflicted event payload) :=
      .inr (by simp [conflict, hraw, htype])
    obtain hdone | hdone := hdoes
    · have hworks : Works .handleFailedEvents before event s₁ s₂ :=
        works_of_done htable hdone (by simpa using hconflict)
      exact ⟨hs.grows hworks.grows, hworks, by rintro ⟨⟩,
        fun _ => earned_of_done hs hdone List.mem_cons_self hconflict⟩
    · have hworks : Works .handleFailedEvents before event s₁ s₂ :=
        works_of_done htable hdone (by simpa using ⟨hdeed, hconflict⟩)
      exact ⟨hs.grows hworks.grows, hworks, by rintro ⟨⟩,
        fun _ => earned_of_done hs hdone List.mem_cons_self hdeed⟩
  | rejected =>
    have hworks : Works .handleFailedEvents before event s₁ s₂ := by
      obtain hdone | hdone := hdoes
      · exact works_idle htable hdone
      · exact works_of_done htable hdone (by simpa using hdeed)
    exact ⟨hs.grows hworks.grows, hworks, .failure⟩
  | pending =>
    have hworks : Works .handleFailedEvents before event s₁ s₂ :=
      works_idle htable hdoes
    exact ⟨hs.grows hworks.grows, hworks, fun _ _ _ r => Empty.elim r⟩

theorem handled_updateStatus {post : Exit Error Unit → Outbox → Prop} {status : OutboxEventStatus}
    (h : (status = .fail ∧ poll = .handleFailedEvents) ∨
      (status = .success ∧ Earned poll event before s))
    (hpost : ∀ x t, x ≠ .defect → post x t) :
    Handled stocks poll before event post (OutboxPollingService.updateStatus event status) s := by
  intro s₁ hg hs resolved s₂ ⟨htable, hdone⟩
  have h₁ : (status = .fail ∧ poll = .handleFailedEvents) ∨
      (status = .success ∧ Earned poll event before s₁) := h.imp_right (fun ⟨he, hd⟩ => ⟨he, hd.grows hg⟩)
  have hsame : s₂.done = s₁.done := hdone
  cases resolved with
  | true =>
    have hworks : Works poll before event s₁ s₂ := ⟨⟨[], by simpa using hsame, by simp⟩, .inr ⟨status, htable.2, h₁⟩⟩
    exact ⟨hs.grows hworks.grows, hworks, hpost _ _ (by rintro ⟨⟩)⟩
  | false =>
    have hworks : Works poll before event s₁ s₂ := works_idle htable hsame
    exact ⟨hs.grows hworks.grows, hworks, hpost _ _ (by rintro ⟨⟩)⟩

theorem handled_retry {post : Exit Error Unit → Outbox → Prop} {p : Handling Unit}
    (h : ∀ s, Handled stocks poll before event post p s) : Handled stocks poll before event post (p.retry 3) s := by
  have hretry : Handled stocks poll before event (fun x t => True ∧ post x t) (p.retry 3) s :=
    Pool.Safe.retry 3 (fun s' _ => (h s').mono (fun _ _ hx => ⟨trivial, hx⟩)) trivial
  exact hretry.mono (fun _ _ hx => hx.2)

theorem handled_produceEvent {payload : Value}
    (hparse : OutboxPollingService.parsePayload event.payload = some payload)
    (h : event.eventType = OutboxEventTypes.orderSuccess ∨
      (event.eventType ∈ keyedTypes ∧ orderId payload ≠ none)) :
    Handled stocks .handleInitEvents before event (Resolved .handleInitEvents before event)
      (OutboxPollingService.produceEvent event payload) s := by
  obtain htype | ⟨hkeyed, hkey⟩ := h
  · rw [produceEvent_paid htype]
    exact ⟨by rintro ⟨⟩, fun _ => .inl ⟨rfl, htype⟩⟩
  · obtain ⟨key, hkey⟩ := Option.ne_none_iff_exists'.mp hkey
    rw [produceEvent_keyed hkeyed hkey]
    exact handled_retry (fun s' => handled_emit (by simp [deed, hkeyed, hparse, hkey]))

theorem handled_processOutboxEvent (h : Builds .handleInitEvents event) :
    Handled stocks .handleInitEvents before event (fun x _ => x = .success ())
      (OutboxPollingService.processOutboxEvent event) s := by
  obtain ⟨payload, hparse, htype⟩ := h
  simp only [OutboxPollingService.processOutboxEvent, hparse]
  refine Pool.Safe.catchAll (Pool.Safe.flatMap ((handled_produceEvent hparse htype).mono
    (fun x t hx => ?_)))
  cases x with
  | success a =>
    refine Pool.Safe.flatMap (handled_updateStatus (.inr ⟨rfl, hx.2 rfl⟩) (fun y u hy => ?_))
    cases y with
    | success b => rfl
    | failure e => rfl
    | defect => exact absurd rfl hy
  | failure e => rfl
  | defect => exact absurd rfl hx.1

theorem handled_executeCompensation (h : Builds .handleFailedEvents event) :
    Handled stocks .handleFailedEvents before event (fun x _ => x ≠ .defect)
      (OutboxPollingService.executeCompensation event) s := by
  obtain ⟨payload, hraw⟩ := h
  simp only [OutboxPollingService.executeCompensation, hraw]
  refine Pool.Safe.flatMap ((handled_compensate hraw).mono (fun x t hx => ?_))
  cases x with
  | success a => exact handled_updateStatus (.inr ⟨rfl, hx.2 rfl⟩) (fun y u hy => hy)
  | failure e => rintro ⟨⟩
  | defect => exact absurd rfl hx.1

theorem handled_handle (stocks : Decimal → Bool) (poll : Poll) (event : OutboxEventModel)
    (before : List Deed) (s : Outbox) :
    Handled stocks poll before event (fun _ _ => True) (handle poll event) s := by
  by_cases hb : Builds poll event
  · cases poll with
    | handleInitEvents =>
      refine Pool.Safe.catchAll ((handled_retry (fun _ => handled_processOutboxEvent hb)).mono
        (fun x t hx => ?_))
      subst hx
      trivial
    | handleFailedEvents =>
      refine Pool.Safe.catchAll ((handled_retry (fun _ => handled_executeCompensation hb)).mono
        (fun x t hx => ?_))
      cases x with
      | success a => trivial
      | failure e => exact handled_updateStatus (.inl ⟨rfl, rfl⟩) (fun _ _ _ => trivial)
      | defect => exact absurd rfl hx
  · rw [handle_die hb]
    trivial

end Deeds

section Message

def createdRow : OutboxEvent :=
  ⟨"7", OutboxEventTypes.orderCreated, .object [("order", .object [("id", .string "7")])], .init⟩

def unpaidRow : OutboxEvent := ⟨"8", OutboxEventTypes.orderPayment,
  .object [("order", .object [("id", .string "8")]), ("orderItems", .array [.object
    [("productId", .number ⟨2, 0, by decide⟩), ("quantity", .number ⟨3, 0, by decide⟩)]])], .fail⟩

def createdEvent : OutboxEventModel := OutboxEventModel.from createdRow

def unpaidEvent : OutboxEventModel := OutboxEventModel.from unpaidRow

def createdMessage : Deed := .sent OutboxEventTypes.orderCreated (some (.string "7")) createdEvent.payload

theorem parsePayload_createdEvent :
    OutboxPollingService.parsePayload createdEvent.payload = some createdRow.payload :=
  parsePayload_stringify _

theorem rawPayload_unpaidEvent :
    OutboxPollingService.rawPayload unpaidEvent.payload = some unpaidRow.payload :=
  rawPayload_stringify _

theorem deed_createdRow : deed .handleInitEvents (OutboxEventModel.from createdRow) = some createdMessage := by
  have hkeyed : (OutboxEventModel.from createdRow).eventType ∈ keyedTypes := by decide
  have hparse : OutboxPollingService.parsePayload (OutboxEventModel.from createdRow).payload =
      some createdRow.payload := parsePayload_createdEvent
  have hkey : orderId createdRow.payload = some (some (.string "7")) := rfl
  rw [deed, if_pos hkeyed, hparse, Option.bind_some, hkey]
  rfl

theorem deed_unpaidRow : deed .handleFailedEvents (OutboxEventModel.from unpaidRow) =
    some (.compensated unpaidEvent unpaidRow.payload) := by
  have hraw : OutboxPollingService.rawPayload (OutboxEventModel.from unpaidRow).payload =
      some unpaidRow.payload := rawPayload_unpaidEvent
  rw [deed, hraw]
  rfl

variable {exec : (c : Call) → Outbox → c.Reply → Outbox → Prop} {s t u : Outbox}

theorem created_steps (hemit : exec (.emit OutboxEventTypes.orderCreated (some (.string "7"))
      createdEvent.payload) s true t)
    (hupdate : exec (.update "7" OutboxEventTypes.orderCreated .success) t true u) :
    Steps 5 (handle .handleInitEvents) exec (start ([createdRow].map OutboxEventModel.from), s)
      ([(createdEvent, .ended (.success ()))], u) := by
  have hproduce : OutboxPollingService.produceEvent createdEvent createdRow.payload =
      produce OutboxEventTypes.orderCreated (some (.string "7")) createdEvent :=
    produceEvent_keyed (by decide) rfl
  have hhandle : ∃ k l : Bool → Handling Unit, handle .handleInitEvents createdEvent =
        .perform (.emit OutboxEventTypes.orderCreated (some (.string "7")) createdEvent.payload) k ∧
      k true = .perform (.update "7" OutboxEventTypes.orderCreated .success) l ∧ l true = .succeed () := by
    simp only [handle, OutboxPollingService.createEventHandler, OutboxPollingService.processOutboxEvent,
      parsePayload_createdEvent, hproduce]
    exact ⟨_, _, rfl, rfl, rfl⟩
  obtain ⟨k, l, hhandle, hk, hl⟩ := hhandle
  refine .head (.quiet [] [] .begin rfl (by simp) (by simp)) ?_
  rw [show OutboxEventModel.from createdRow = createdEvent from rfl, hhandle]
  refine .head (.quiet [] [] (.call hemit) rfl (by simp) (by simp)) ?_
  rw [hk]
  refine .head (.quiet [] [] (.call hupdate) rfl (by simp) (by simp)) ?_
  rw [hl]
  exact .single (.quiet [] [] .succeed rfl (by simp) (by simp))

theorem unpaid_steps {settlement : Settlement} (hsettled : settlement = .carriedOut ∨ settlement = .swallowed)
    (hcompensate : exec (.compensate unpaidEvent unpaidRow.payload) s settlement t)
    (hupdate : exec (.update "8" OutboxEventTypes.orderPayment .success) t true u) :
    Steps 5 (handle .handleFailedEvents) exec (start ([unpaidRow].map OutboxEventModel.from), s)
      ([(unpaidEvent, .ended (.success ()))], u) := by
  have hhandle : ∃ (k : Settlement → Handling Unit) (l : Bool → Handling Unit),
      handle .handleFailedEvents unpaidEvent = .perform (.compensate unpaidEvent unpaidRow.payload) k ∧
      k settlement = .perform (.update "8" OutboxEventTypes.orderPayment .success) l ∧
      l true = .succeed () := by
    simp only [handle, OutboxPollingService.createEventHandler, OutboxPollingService.executeCompensation,
      rawPayload_unpaidEvent]
    obtain rfl | rfl := hsettled
    · exact ⟨_, _, rfl, rfl, rfl⟩
    · exact ⟨_, _, rfl, rfl, rfl⟩
  obtain ⟨k, l, hhandle, hk, hl⟩ := hhandle
  refine .head (.quiet [] [] .begin rfl (by simp) (by simp)) ?_
  rw [show OutboxEventModel.from unpaidRow = unpaidEvent from rfl, hhandle]
  refine .head (.quiet [] [] (.call hcompensate) rfl (by simp) (by simp)) ?_
  rw [hk]
  refine .head (.quiet [] [] (.call hupdate) rfl (by simp) (by simp)) ?_
  rw [hl]
  exact .single (.quiet [] [] .succeed rfl (by simp) (by simp))

def created : Outbox := ⟨⟨[createdRow], by decide⟩, []⟩

def createdSent : Outbox := ⟨created.table.update (rowKey createdRow) .success, [createdMessage]⟩

def unpaid : Outbox := ⟨⟨createdSent.table.rows ++ [unpaidRow], by decide⟩, createdSent.done⟩

def unpaidSettled (d : Deed) : Outbox :=
  ⟨unpaid.table.update (rowKey unpaidRow) .success, unpaid.done ++ [d]⟩

theorem created_finds : created.table.Finds Poll.handleInitEvents.status [createdRow] := ⟨[createdRow], .refl _, rfl⟩

theorem unpaid_finds : unpaid.table.Finds Poll.handleFailedEvents.status [unpaidRow] := ⟨[unpaidRow], .refl _, rfl⟩

end Message

section Rounds

variable {poll : Poll} {s t : Outbox} {rounds : List Round}

/-- All that is done in the batch settles an event that was read, and an event's status is set to
`SUCCESS` only when it has been settled in this very batch. -/
structure Round.Delivers (round : Round) : Prop where
  rows : ∃ new, round.after.done = round.before.done ++ new ∧
    (∀ d ∈ new, ∃ row ∈ round.rows, Settles round.poll (OutboxEventModel.from row) d) ∧
    ∀ row ∈ round.rows, round.after.table.status (rowKey row) = some round.poll.status ∨
      (round.after.table.status (rowKey row) = some .success ∧
        ((round.poll = .handleInitEvents ∧ row.eventType = OutboxEventTypes.orderSuccess) ∨
          ∃ d ∈ new, Settles round.poll (OutboxEventModel.from row) d))
  others : ∀ key, key ∉ round.rows.map rowKey →
    round.after.table.status key = round.before.table.status key

theorem status_row {table : Table} {row : OutboxEvent} (hm : row ∈ table.rows) :
    table.status (rowKey row) = some row.status := by
  have hfind : table.rows.find? (fun r => rowKey r = rowKey row) = some row := by
    cases hcase : table.rows.find? (fun r => rowKey r = rowKey row) with
    | none => simpa using List.find?_eq_none.mp hcase row hm
    | some row' =>
      have hkey : rowKey row' = rowKey row := by simpa using List.find?_some hcase
      rw [List.inj_on_of_nodup_map table.unique (List.mem_of_find?_eq_some hcase) hm hkey]
  rw [Table.status, hfind, Option.map_some]

theorem finds_status {table : Table} {status : OutboxEventStatus} {rows : List OutboxEvent}
    (h : table.Finds status rows) {row : OutboxEvent} (hm : row ∈ rows) :
    table.status (rowKey row) = some status := by
  obtain ⟨order, hperm, rfl⟩ := h
  obtain ⟨hrow, hstatus⟩ := List.mem_filter.mp (hperm.mem_iff.mp (List.mem_of_mem_take hm))
  rw [status_row hrow, of_decide_eq_true hstatus]

structure Delivering (poll : Poll) (rows : List OutboxEvent) (s t : Outbox) : Prop where
  deeds : ∃ new, t.done = s.done ++ new ∧
    ∀ d ∈ new, ∃ row ∈ rows, Settles poll (OutboxEventModel.from row) d
  status : ∀ row ∈ rows, t.table.status (rowKey row) = some poll.status ∨
    (t.table.status (rowKey row) = some .success ∧
      Earned poll (OutboxEventModel.from row) s.done t)
  others : ∀ key, key ∉ rows.map rowKey → t.table.status key = s.table.status key

theorem Delivering.works {rows : List OutboxEvent} {u : Outbox} (h : Delivering poll rows s t)
    (hnodup : (rows.map rowKey).Nodup) {row : OutboxEvent} (hm : row ∈ rows)
    (hworks : Works poll s.done (OutboxEventModel.from row) t u) : Delivering poll rows s u := by
  have hg := hworks.grows
  obtain ⟨⟨new', hnew', hdeeds'⟩, htable⟩ := hworks
  obtain ⟨new, hnew, hdeeds⟩ := h.deeds
  have hkept : ∀ row' ∈ rows, t.table.status (rowKey row') = some poll.status ∨
      (t.table.status (rowKey row') = some .success ∧
        Earned poll (OutboxEventModel.from row') s.done u) :=
    fun row' hm' => (h.status row' hm').imp_right (fun hs => ⟨hs.1, hs.2.grows hg⟩)
  refine ⟨⟨new ++ new', by rw [hnew', hnew, List.append_assoc], fun d hd => ?_⟩,
    fun row' hm' => ?_, fun key hkey => ?_⟩
  · obtain hd | hd := List.mem_append.mp hd
    · exact hdeeds d hd
    · exact ⟨row, hm, hdeeds' d hd⟩
  · obtain hsame | ⟨status, hu, hstatus⟩ := htable
    · rw [hsame]
      exact hkept row' hm'
    · rw [hu, Table.status_update]
      split
      · rename_i hkey
        obtain rfl : row' = row := List.inj_on_of_nodup_map hnodup hm' hm hkey
        -- the row is there, as it has a status
        have hthere : ∃ old, t.table.status (rowKey row') = some old :=
          (hkept row' hm').elim (fun hs => ⟨_, hs⟩) (fun hs => ⟨_, hs.1⟩)
        obtain ⟨old, hthere⟩ := hthere
        rw [hthere, Option.map_some]
        obtain ⟨rfl, rfl⟩ | ⟨rfl, hearned⟩ := hstatus
        · exact .inl rfl
        · exact .inr ⟨rfl, hearned.grows hg⟩
      · exact hkept row' hm'
  · obtain hsame | ⟨status, hu, _⟩ := htable
    · rw [hsame]
      exact h.others key hkey
    · have hne : key ≠ eventKey (OutboxEventModel.from row) :=
        fun he => hkey (he ▸ List.mem_map_of_mem hm)
      rw [hu, Table.status_update, if_neg hne]
      exact h.others key hkey

theorem round_delivers {u : Outbox} {rows : List OutboxEvent} {stocks : Decimal → Bool} {tasks : EventTasks}
    (hfinds : t.table.Finds poll.status rows)
    (hsteps : Steps 5 (handle poll) (Outbox.exec stocks) (start (rows.map OutboxEventModel.from), t) (tasks, u)) :
    Delivering poll rows t u := by
  have hkeys : ((rows.map OutboxEventModel.from).map eventKey).Nodup := hfinds.nodup
  have hrows : (rows.map rowKey).Nodup := by rwa [List.map_map] at hkeys
  have hstart : Delivering poll rows t t :=
    ⟨⟨[], by simp⟩, fun row hm => .inl (finds_status hfinds hm), fun _ _ => rfl⟩
  refine (Steps.safe (F := Delivering poll rows t) (fun event _ s' _ => handled_handle stocks poll event t.done s')
    (fun _ _ => Grows.refl) (fun _ _ _ _ _ => Grows.trans) (fun _ _ _ _ _ _ hw => hw.grows)
    (fun event hevent _ s' s'' _ hdelivering hworks => ?_) (hkeys.of_map eventKey) hsteps
    ⟨[], by simp⟩ hstart).2
  obtain ⟨row, hm, rfl⟩ := List.mem_map.mp hevent
  exact hdelivering.works hrows hm hworks

theorem Delivering.delivers {u : Outbox} {rows : List OutboxEvent} (h : Delivering poll rows t u) :
    Round.Delivers ⟨poll, rows, t, u⟩ := by
  obtain ⟨new, hnew, hdeeds⟩ := h.deeds
  refine ⟨⟨new, hnew, hdeeds, fun row hm => (h.status row hm).imp_right (fun hs => ⟨hs.1, ?_⟩)⟩, h.others⟩
  obtain hfree | ⟨new', hnew', hdeed⟩ := hs.2
  · exact .inl hfree
  · obtain rfl := List.append_cancel_left (hnew'.symm.trans hnew)
    exact .inr hdeed

/-- In every run of the poller, whatever its promises reject, wherever a batch stops and whatever
others write between two batches: an event becomes `SUCCESS` only after its message was taken, its
compensation carried out or, for a payment, ended in a conflict, in that batch; an event that waits
to be sent is never marked as failed; and nothing is sent or compensated that was not read. -/
theorem polls_deliver (h : Polls s rounds t) : (∀ round ∈ rounds, round.Delivers) ∧
    ∃ new, t.done = s.done ++ new ∧ ∀ d ∈ new, ∃ round ∈ rounds, ∃ row ∈ round.rows,
      Settles round.poll (OutboxEventModel.from row) d := by
  induction h with
  | nil => exact ⟨by simp, [], by simp⟩
  | others _ hsame ih =>
    obtain ⟨hrounds, new, hnew, hdeeds⟩ := ih
    exact ⟨hrounds, new, hsame.trans hnew, hdeeds⟩
  | @round rounds t u poll rows stocks tasks _ hfinds hsteps ih =>
    obtain ⟨hrounds, new, hnew, hdeeds⟩ := ih
    have hdelivering := round_delivers hfinds hsteps
    obtain ⟨new', hnew', hdeeds'⟩ := hdelivering.deeds
    refine ⟨fun round hm => ?_, new ++ new', by rw [hnew', hnew, List.append_assoc], fun d hd => ?_⟩
    · obtain hm | hm := List.mem_append.mp hm
      · exact hrounds round hm
      · cases List.mem_singleton.mp hm
        exact hdelivering.delivers
    · obtain hd | hd := List.mem_append.mp hd
      · obtain ⟨round, hm, row, hrow, hdeed⟩ := hdeeds d hd
        exact ⟨round, List.mem_append_left _ hm, row, hrow, hdeed⟩
      · obtain ⟨row, hrow, hdeed⟩ := hdeeds' d hd
        exact ⟨_, List.mem_append_right _ List.mem_cons_self, row, hrow, hdeed⟩

/-- The message is sent, the failed payment comes in between, and its compensation ends in a
conflict that is taken for done. -/
theorem polls_deliver_created : ∃ rounds, Polls created rounds
      (unpaidSettled (.conflicted unpaidEvent unpaidRow.payload)) ∧
    rounds.map (·.rows) = [[createdRow], [unpaidRow]] ∧ ∀ round ∈ rounds, round.Delivers := by
  have hemit : Outbox.exec (fun _ => true) (.emit OutboxEventTypes.orderCreated (some (.string "7"))
      createdEvent.payload) created true ⟨created.table, [createdMessage]⟩ := ⟨rfl, .inl rfl⟩
  have hsent : Outbox.exec (fun _ => true) (.update "7" OutboxEventTypes.orderCreated .success)
      ⟨created.table, [createdMessage]⟩ true createdSent := ⟨⟨by decide, rfl⟩, rfl⟩
  have hcompensate : Outbox.exec (fun _ => true) (.compensate unpaidEvent unpaidRow.payload) unpaid .swallowed
      ⟨unpaid.table, unpaid.done ++ [.conflicted unpaidEvent unpaidRow.payload]⟩ := ⟨⟨rfl, rfl⟩, .inl rfl⟩
  have hsettled : Outbox.exec (fun _ => true) (.update "8" OutboxEventTypes.orderPayment .success)
      ⟨unpaid.table, unpaid.done ++ [.conflicted unpaidEvent unpaidRow.payload]⟩ true
      (unpaidSettled (.conflicted unpaidEvent unpaidRow.payload)) := ⟨⟨by decide, rfl⟩, rfl⟩
  have hwritten : Polls created _ unpaid :=
    .others (.round .nil created_finds (created_steps hemit hsent)) rfl
  have hpolls : Polls created _ (unpaidSettled (.conflicted unpaidEvent unpaidRow.payload)) :=
    .round hwritten unpaid_finds (unpaid_steps (.inr rfl) hcompensate hsettled)
  exact ⟨_, hpolls, rfl, (polls_deliver hpolls).1⟩

end Rounds

section Smooth

def deeds : Handling Unit → List Deed
  | .perform (.emit topic key value) k => .sent topic key value :: deeds (k true)
  | .perform (.compensate event payload) k => .compensated event payload :: deeds (k .carriedOut)
  | .perform (.update _ _ _) k => deeds (k true)
  | _ => []

def Marking (event : OutboxEventModel) (p : Handling Unit) : Prop :=
  ∃ k, p = .perform (.update event.aggregateId event.eventType .success) k ∧ k true = .succeed ()

inductive Script (event : OutboxEventModel) : Handling Unit → Prop
  | mark {p : Handling Unit} : Marking event p → Script event p
  | emit {topic : String} {key : Option Value} {value : String} {k : Bool → Handling Unit} :
      Marking event (k true) → Script event (.perform (.emit topic key value) k)
  | compensate {event' : OutboxEventModel} {payload : Value} {k : Settlement → Handling Unit} :
      Marking event (k .carriedOut) → Script event (.perform (.compensate event' payload) k)

variable {poll : Poll} {event : OutboxEventModel} {p : Handling Unit} {stocks : Decimal → Bool} {s t : Outbox}

theorem Marking.deeds (h : Marking event p) : Delivery.deeds p = [] := by
  obtain ⟨k, rfl, hk⟩ := h
  simp [Delivery.deeds, hk]

theorem script_processOutboxEvent (h : Builds .handleInitEvents event) :
    Script event (handle .handleInitEvents event) ∧
      deeds (handle .handleInitEvents event) = (deed .handleInitEvents event).toList := by
  obtain ⟨payload, hparse, htype | ⟨hkeyed, hkey⟩⟩ := h
  · have hproduce : OutboxPollingService.produceEvent event payload = .succeed () := by
      simp only [OutboxPollingService.produceEvent, htype]
      rfl
    have hmarking : Marking event (handle .handleInitEvents event) := by
      simp only [handle, OutboxPollingService.createEventHandler,
        OutboxPollingService.processOutboxEvent, hparse, hproduce]
      exact ⟨_, rfl, rfl⟩
    have hnone : deed .handleInitEvents event = none := by
      have hnot : event.eventType ∉ keyedTypes := htype ▸ by decide
      simp [deed, hnot]
    exact ⟨.mark hmarking, by rw [hmarking.deeds, hnone]; rfl⟩
  · obtain ⟨key, hkey⟩ := Option.ne_none_iff_exists'.mp hkey
    have hsome : deed .handleInitEvents event = some (.sent event.eventType key event.payload) := by
      simp [deed, hkeyed, hparse, hkey]
    simp only [handle, OutboxPollingService.createEventHandler,
      OutboxPollingService.processOutboxEvent, hparse, produceEvent_keyed hkeyed hkey, hsome]
    exact ⟨.emit ⟨_, rfl, rfl⟩, rfl⟩

theorem script_executeCompensation (h : Builds .handleFailedEvents event) :
    Script event (handle .handleFailedEvents event) ∧
      deeds (handle .handleFailedEvents event) = (deed .handleFailedEvents event).toList := by
  obtain ⟨payload, hraw⟩ := h
  have hsome : deed .handleFailedEvents event = some (.compensated event payload) := by
    simp [deed, hraw]
  simp only [handle, OutboxPollingService.createEventHandler,
    OutboxPollingService.executeCompensation, hraw, hsome]
  exact ⟨.compensate ⟨_, rfl, rfl⟩, rfl⟩

/-- When nothing is rejected a handler does its deed once and marks its row. -/
theorem script_handle (h : Builds poll event) :
    Script event (handle poll event) ∧ deeds (handle poll event) = (deed poll event).toList := by
  cases poll with
  | handleInitEvents => exact script_processOutboxEvent h
  | handleFailedEvents => exact script_executeCompensation h

abbrev EventTask : Type := Task Call Call.Reply Error Unit

def Marked (event : OutboxEventModel) (s : Outbox) : Prop :=
  s.table.status (eventKey event) = some .success

def Going (event : OutboxEventModel) (s : Outbox) : EventTask → Prop
  | .waiting => True
  | .running p => Script event p ∨ (p = .succeed () ∧ Marked event s)
  | .ended x => x = .success () ∧ Marked event s
  | .interrupted => False

def owing (poll : Poll) (event : OutboxEventModel) : EventTask → Multiset Deed
  | .waiting => (deed poll event).toList
  | .running p => deeds p
  | _ => 0

theorem Script.call {c : Call} {k : c.Reply → Handling Unit} {r : c.Reply}
    (h : Script event (.perform c k)) (hexec : Outbox.smooth stocks c s r t) :
    Going event t (.running (k r)) ∧
      (t.done : Multiset Deed) + deeds (k r) = (s.done : Multiset Deed) + deeds (.perform c k) ∧
      (t.table = s.table ∨ t.table = s.table.update (eventKey event) .success) := by
  obtain ⟨⟨htable, hdoes⟩, hcarried⟩ := hexec
  have hdone : ∀ (d : Deed) (ds : List Deed), t.done = s.done ++ [d] → (t.done : Multiset Deed) + ds =
      (s.done : Multiset Deed) + (d :: ds : List Deed) := by
    intro d ds hd
    rw [hd, Multiset.coe_add, Multiset.coe_add, List.append_assoc, List.singleton_append]
  cases h with
  | mark hmark =>
    obtain ⟨k', heq, hk⟩ := hmark
    cases heq
    obtain rfl : r = true := hcarried
    obtain ⟨hthere, htable⟩ := htable
    have hsame : t.done = s.done := hdoes
    have hkey : eventKey event = (event.aggregateId, event.eventType) := rfl
    rw [hk]
    refine ⟨.inr ⟨rfl, ?_⟩, by simp [hsame, deeds, hk], .inr htable⟩
    obtain ⟨old, hold⟩ := Option.ne_none_iff_exists'.mp hthere
    rw [Marked, htable, Table.status_update, if_pos hkey, hkey, hold, Option.map_some]
  | emit hmark =>
    obtain rfl : r = true := hcarried
    obtain hd | ⟨hrejected, _⟩ := hdoes
    · exact ⟨.inl (.mark hmark), hdone _ _ hd, .inl htable⟩
    · cases hrejected
  | compensate hmark =>
    obtain rfl : r = .carriedOut := hcarried
    exact ⟨.inl (.mark hmark), hdone _ _ hdoes, .inl htable.2⟩

theorem Script.perform (h : Script event p) : ∃ c k, p = .perform c k := by
  cases h with
  | mark hmark =>
    obtain ⟨k, rfl, _⟩ := hmark
    exact ⟨_, k, rfl⟩
  | emit _ => exact ⟨_, _, rfl⟩
  | compensate _ => exact ⟨_, _, rfl⟩

theorem Going.over (h : Going event s (.running p)) (hp : ∀ c k, p ≠ .perform c k) :
    p = .succeed () ∧ Marked event s := by
  obtain hscript | hover := h
  · obtain ⟨c, k, rfl⟩ := hscript.perform
    exact absurd rfl (hp c k)
  · exact hover

theorem Going.calls {c : Call} {k : c.Reply → Handling Unit} (h : Going event s (.running (.perform c k))) :
    Script event (.perform c k) := by
  obtain hscript | ⟨heq, _⟩ := h
  · exact hscript
  · cases heq

theorem Marked.other {event' : OutboxEventModel} (h : Marked event s)
    (htable : t.table = s.table ∨ t.table = s.table.update (eventKey event') .success)
    (hne : eventKey event ≠ eventKey event') : Marked event t := by
  obtain hsame | hupdate := htable
  · rw [Marked, hsame]
    exact h
  · rw [Marked, hupdate, Table.status_update, if_neg hne]
    exact h

theorem Going.other {event' : OutboxEventModel} {task : EventTask} (h : Going event s task)
    (htable : t.table = s.table ∨ t.table = s.table.update (eventKey event') .success)
    (hne : eventKey event ≠ eventKey event') : Going event t task := by
  cases task with
  | waiting => trivial
  | running p => exact h.imp_right (fun hover => ⟨hover.1, hover.2.other htable hne⟩)
  | ended x => exact ⟨h.1, h.2.other htable hne⟩
  | interrupted => exact h

theorem Going.not_stops {task : EventTask} (h : Going event s task) : task.stops = false := by
  cases task with
  | waiting => rfl
  | running p => rfl
  | ended x =>
    obtain ⟨rfl, _⟩ := h
    rfl
  | interrupted => cases h

theorem going_move {task task' : EventTask} (hbuilds : Builds poll event) (h : Going event s task)
    (hmove : Move (handle poll) (Outbox.smooth stocks) event task s task' t) : Going event t task' ∧
      (t.done : Multiset Deed) + owing poll event task' = (s.done : Multiset Deed) + owing poll event task ∧
      (t.table = s.table ∨ t.table = s.table.update (eventKey event) .success) := by
  cases hmove with
  | begin =>
    obtain ⟨hscript, hdeeds⟩ := script_handle hbuilds
    exact ⟨.inl hscript, by rw [owing, owing, hdeeds], .inl rfl⟩
  | call hexec => exact h.calls.call hexec
  | succeed =>
    obtain ⟨_, hmarked⟩ := h.over (by rintro c k ⟨⟩)
    exact ⟨⟨rfl, hmarked⟩, rfl, .inl rfl⟩
  | fail => cases (h.over (by rintro c k ⟨⟩)).1
  | die => cases (h.over (by rintro c k ⟨⟩)).1

theorem going_keeps (stocks : Decimal → Bool) {events : List OutboxEventModel} {F : Outbox → Prop}
    (hnodup : (events.map eventKey).Nodup) (hbuilds : ∀ event ∈ events, Builds poll event)
    (hF : ∀ event ∈ events, ∀ s t, F s →
      (t.table = s.table ∨ t.table = s.table.update (eventKey event) .success) → F t) :
    Keeps (handle poll) (Outbox.smooth stocks) F (fun s event task => event ∈ events ∧ Going event s task) := by
  refine ⟨fun {event task s task' s'} hFs hx hmove => ?_,
    fun {event task s task' s' y τ} _ hx hmove hne hy => ⟨hy.1, ?_⟩, fun {event task s y τ} hx hstops hy => ?_⟩
  · obtain ⟨hgoing, _, htable⟩ := going_move (hbuilds _ hx.1) hx.2 hmove
    exact ⟨hF _ hx.1 _ _ hFs htable, hx.1, hgoing⟩
  · have hkey : eventKey y ≠ eventKey event :=
      fun he => hne (List.inj_on_of_nodup_map hnodup hy.1 hx.1 he)
    exact hy.2.other (going_move (hbuilds _ hx.1) hx.2 hmove).2.2 hkey
  · rw [hx.2.not_stops] at hstops
    cases hstops

theorem total_start (events : List OutboxEventModel) :
    total (owing poll) (start events) = (events.filterMap (deed poll) : List Deed) := by
  induction events with
  | nil => rfl
  | cons event events ih =>
    have hcons : total (owing poll) (start (event :: events)) =
        owing poll event .waiting + total (owing poll) (start events) := by
      simp [total, start]
    rw [hcons, ih, owing, Multiset.coe_add]
    cases hdeed : deed poll event with
    | none => simp [hdeed]
    | some d => simp [hdeed]

theorem total_over {tasks : EventTasks} (hover : Over tasks) : total (owing poll) tasks = 0 := by
  induction tasks with
  | nil => rfl
  | cons task tasks ih =>
    obtain ⟨hfirst, hrest⟩ := List.forall_mem_cons.mp hover
    have hcons : total (owing poll) (task :: tasks) =
        owing poll task.1 task.2 + total (owing poll) tasks := by simp [total]
    rw [hcons, ih hrest, add_zero]
    obtain ⟨event, task⟩ := task
    cases task with
    | waiting => cases hfirst
    | running p => cases hfirst
    | ended x => rfl
    | interrupted => rfl

def markAll (keys : List Key) (row : OutboxEvent) : OutboxEvent :=
  if rowKey row ∈ keys then { row with status := .success } else row

theorem setStatus_markAll (key : Key) (keys : List Key) (row : OutboxEvent) :
    setStatus key .success (markAll keys row) = markAll (key :: keys) row := by
  have hkey : rowKey (markAll keys row) = rowKey row := by
    rw [markAll]
    split <;> rfl
  rw [setStatus, hkey]
  by_cases hsame : rowKey row = key
  · subst hsame
    by_cases hm : rowKey row ∈ keys
    · simp [markAll, hm]
    · simp [markAll, hm]
  · simp [markAll, hsame]

def MarkedFrom (s : Outbox) (keys : List Key) (t : Outbox) : Prop :=
  ∃ done, (∀ key ∈ done, key ∈ keys) ∧ t.table.rows = s.table.rows.map (markAll done)

theorem MarkedFrom.mark {u : Outbox} {keys : List Key} {key : Key} (h : MarkedFrom s keys t)
    (hm : key ∈ keys) (htable : u.table = t.table ∨ u.table = t.table.update key .success) :
    MarkedFrom s keys u := by
  obtain ⟨done, hdone, hrows⟩ := h
  obtain hsame | hupdate := htable
  · exact ⟨done, hdone, by rw [hsame, hrows]⟩
  · refine ⟨key :: done, List.forall_mem_cons.mpr ⟨hm, hdone⟩, ?_⟩
    have hset : u.table.rows = t.table.rows.map (setStatus key .success) := by
      rw [hupdate]
      rfl
    rw [hset, hrows, List.map_map]
    exact List.map_congr_left (fun row _ => setStatus_markAll key done row)

/-- A batch of readable rows of which nothing is rejected: all of them are marked, nothing else
is written, and each deed is done once. -/
theorem smooth_batch {rows : List OutboxEvent} {tasks : EventTasks}
    (hfinds : s.table.Finds poll.status rows) (hread : ∀ row ∈ rows, Readable poll row)
    (hsteps : Steps 5 (handle poll) (Outbox.smooth stocks) (start (rows.map OutboxEventModel.from), s)
      (tasks, t))
    (hover : Over tasks) :
    (∀ row ∈ rows, t.table.status (rowKey row) = some .success) ∧ MarkedFrom s (rows.map rowKey) t ∧
      (t.done : Multiset Deed) =
        s.done + (rows.filterMap (fun row => deed poll (OutboxEventModel.from row)) : List Deed) := by
  have hkeys := hfinds.nodup
  have hevents : (rows.map OutboxEventModel.from).map eventKey = rows.map rowKey := by
    rw [List.map_map]
    rfl
  have hbuilds : ∀ event ∈ rows.map OutboxEventModel.from, Builds poll event := by
    intro event hevent
    obtain ⟨row, hrow, rfl⟩ := List.mem_map.mp hevent
    exact builds_iff.mpr (hread row hrow)
  have hkeeps := going_keeps stocks (F := MarkedFrom s (rows.map rowKey)) hkeys hbuilds
    (fun event hevent s' t' hmarked htable =>
      hmarked.mark (hevents ▸ List.mem_map_of_mem hevent) htable)
  have hstart : MarkedFrom s (rows.map rowKey) s := by
    have hnone : markAll [] = id := funext (fun row => by simp [markAll])
    exact ⟨[], by simp, by rw [hnone, List.map_id]⟩
  obtain ⟨hmarked, hgoing⟩ :=
    hkeeps.run hsteps (hkeys.of_map eventKey) hstart (fun event hm => ⟨hm, trivial⟩)
  refine ⟨fun row hrow => ?_, hmarked, ?_⟩
  · have hm : OutboxEventModel.from row ∈ tasks.map Prod.fst := by
      rw [hsteps.map_fst]
      simpa [start, Function.comp_def] using ⟨row, hrow, rfl⟩
    obtain ⟨⟨event, task⟩, hp, heq⟩ := List.mem_map.mp hm
    obtain rfl : event = OutboxEventModel.from row := heq
    obtain ⟨_, hfar⟩ := hgoing _ hp
    have hisOver := hover _ hp
    cases task with
    | waiting => cases hisOver
    | running p => cases hisOver
    | ended x => exact hfar.2
    | interrupted => cases hfar
  · have hsum := Steps.conserved (fun s : Outbox => (s.done : Multiset Deed)) (owing poll)
      hkeeps (fun _ hx hmove => ?_) hsteps ?_ hstart ?_
    · rw [total_over hover, total_start, add_zero, List.filterMap_map] at hsum
      exact hsum
    · obtain ⟨hnext, hdone, _⟩ := going_move (hbuilds _ hx.1) hx.2 hmove
      exact ⟨hnext.not_stops, hdone⟩
    · simpa [start, Function.comp_def] using hkeys.of_map eventKey
    · intro p hp
      obtain ⟨event, hevent, rfl⟩ := List.mem_map.mp hp
      exact ⟨hevent, trivial⟩

end Smooth

section Drain

def pending (status : OutboxEventStatus) (s : Outbox) : List OutboxEvent :=
  s.table.rows.filter (fun row => row.status = status)

def due (poll : Poll) (rows : List OutboxEvent) : List Deed :=
  rows.filterMap (fun row => deed poll (OutboxEventModel.from row))

/-- What is still to be done for rows that wait. -/
def owed (rows : List OutboxEvent) : Multiset Deed :=
  due .handleInitEvents (rows.filter (fun row => row.status = .init)) +
    due .handleFailedEvents (rows.filter (fun row => row.status = .fail))

/-- The handler that its status leads to can read the row. -/
def Sane (row : OutboxEvent) : Prop := ∀ poll : Poll, row.status = poll.status → Readable poll row

/-- Polls in which nothing is rejected. Between two of them others may put rows into the table
or write `INIT` or `FAIL` into rows that are there, `new` in all, but they do not touch what
waits. -/
inductive Drains (s : Outbox) : List Poll → List OutboxEvent → Outbox → Prop
  | nil : Drains s [] [] s
  | others {polls : List Poll} {new rows : List OutboxEvent} {t t' : Outbox} : Drains s polls new t →
      t'.done = t.done → (∀ poll : Poll, (pending poll.status t').Perm
        (pending poll.status t ++ rows.filter (fun row => row.status = poll.status))) →
      (∀ row ∈ rows, Sane row) → Drains s polls (new ++ rows) t'
  | poll {polls : List Poll} {new rows : List OutboxEvent} {t u : Outbox} {poll : Poll}
      {stocks : Decimal → Bool} {tasks : EventTasks} : Drains s polls new t →
      t.table.Finds poll.status rows →
      Steps 5 (handle poll) (Outbox.smooth stocks) (start (rows.map OutboxEventModel.from), t) (tasks, u) →
      Over tasks → Drains s (polls ++ [poll]) new u

variable {poll : Poll} {s t : Outbox} {polls : List Poll} {new : List OutboxEvent}

theorem Poll.status_ne_success (poll : Poll) : poll.status ≠ .success := by
  cases poll with
  | handleInitEvents => rintro ⟨⟩
  | handleFailedEvents => rintro ⟨⟩

theorem filter_markAll {status : OutboxEventStatus} (hne : status ≠ .success) (keys : List Key)
    (rows : List OutboxEvent) : (rows.map (markAll keys)).filter (fun row => row.status = status) =
      (rows.filter (fun row => row.status = status)).filter (fun row => rowKey row ∉ keys) := by
  induction rows with
  | nil => rfl
  | cons row rows ih =>
    by_cases hm : rowKey row ∈ keys
    · by_cases hstatus : row.status = status
      · simp [markAll, hm, ih, hne.symm, hstatus]
      · simp [markAll, hm, ih, hne.symm, hstatus]
    · by_cases hstatus : row.status = status
      · simp [markAll, hm, ih, hstatus]
      · simp [markAll, hm, ih, hstatus]

theorem mem_pending {status : OutboxEventStatus} {row : OutboxEvent} :
    row ∈ pending status s ↔ row ∈ s.table.rows ∧ row.status = status := by
  simp [pending]

theorem markAll_not_mem {keys : List Key} {row : OutboxEvent} (h : rowKey row ∉ keys) :
    markAll keys row = row := if_neg h

theorem MarkedFrom.pending {rows : List OutboxEvent} (hfinds : s.table.Finds poll.status rows)
    (h : MarkedFrom s (rows.map rowKey) t)
    (hall : ∀ row ∈ rows, t.table.status (rowKey row) = some .success) :
    (pending poll.status s).Perm (rows ++ pending poll.status t) ∧
      (Delivery.pending poll.status t).length = (Delivery.pending poll.status s).length - 500 := by
  obtain ⟨done, hdone, htable⟩ := h
  have hmarked : ∀ row ∈ rows, rowKey row ∈ done := by
    intro row hm
    by_contra hnot
    obtain ⟨order, hperm, rfl⟩ := hfinds
    obtain ⟨hrow, hstatus⟩ := List.mem_filter.mp (hperm.mem_iff.mp (List.mem_of_mem_take hm))
    have hthere : row ∈ t.table.rows := by
      rw [htable]
      exact List.mem_map.mpr ⟨row, hrow, markAll_not_mem hnot⟩
    have hsuccess : row.status = .success := by simpa [status_row hthere] using hall row hm
    exact Poll.status_ne_success poll ((of_decide_eq_true hstatus).symm.trans hsuccess)
  obtain ⟨order, hperm, rfl⟩ := hfinds
  have hkeys : (order.map rowKey).Nodup :=
    (hperm.map rowKey).nodup_iff.mpr (s.table.unique.sublist (List.filter_sublist.map rowKey))
  have hleft : order.filter (fun row => rowKey row ∉ done) = order.drop 500 := by
    rw [← List.take_append_drop 500 order, List.filter_append,
      List.filter_eq_nil_iff.mpr (fun row hm => by simpa using hmarked row hm), List.nil_append,
      List.take_append_drop, List.filter_eq_self]
    intro row hm
    have hnot : rowKey row ∉ (order.take 500).map rowKey := by
      rw [← List.take_append_drop 500 order, List.map_append, List.nodup_append] at hkeys
      exact fun hin => hkeys.2.2 _ hin _ (List.mem_map_of_mem hm) rfl
    simpa using fun hin => hnot (hdone _ hin)
  have hpending : (Delivery.pending poll.status t).Perm (order.drop 500) := by
    rw [Delivery.pending, htable, filter_markAll (Poll.status_ne_success poll), ← hleft]
    exact (hperm.symm.filter _)
  refine ⟨hperm.symm.trans ?_, ?_⟩
  · conv_lhs => rw [← List.take_append_drop 500 order]
    exact hpending.symm.append_left _
  · rw [hpending.length_eq, List.length_drop, hperm.length_eq, Delivery.pending]

theorem MarkedFrom.others {rows : List OutboxEvent} (hfinds : s.table.Finds poll.status rows)
    (h : MarkedFrom s (rows.map rowKey) t) (status : OutboxEventStatus) (hne : status ≠ .success)
    (hother : status ≠ poll.status) : Delivery.pending status t = Delivery.pending status s := by
  obtain ⟨done, hdone, htable⟩ := h
  rw [Delivery.pending, htable, filter_markAll hne, List.filter_eq_self.mpr]
  · rfl
  · intro row hm
    obtain ⟨hrow, hstatus⟩ := mem_pending.mp hm
    have hnot : rowKey row ∉ done := by
      intro hin
      obtain ⟨row', hm', hkey⟩ := List.mem_map.mp (hdone _ hin)
      have hread := finds_status hfinds hm'
      rw [hkey, status_row hrow, hstatus] at hread
      exact hother (Option.some.inj hread)
    simpa using hnot

theorem due_perm (poll : Poll) {rows rows' : List OutboxEvent} (h : rows.Perm rows') :
    (due poll rows : Multiset Deed) = due poll rows' := Multiset.coe_eq_coe.mpr (h.filterMap _)

theorem due_append (rows rows' : List OutboxEvent) :
    (due poll (rows ++ rows') : Multiset Deed) = due poll rows + due poll rows' := by
  rw [due, List.filterMap_append, Multiset.coe_add]
  rfl

theorem owed_table (s : Outbox) : owed s.table.rows =
    due .handleInitEvents (pending .init s) + due .handleFailedEvents (pending .fail s) := rfl

structure Drained (s : Outbox) (polls : List Poll) (new : List OutboxEvent) (t : Outbox) : Prop where
  balance : (t.done : Multiset Deed) + owed t.table.rows = s.done + owed s.table.rows + owed new
  sane : ∀ row ∈ t.table.rows, Sane row
  left : ∀ poll : Poll, (pending poll.status t).length ≤
    ((pending poll.status s).length - 500 * polls.count poll) +
      (new.filter (fun row => row.status = poll.status)).length

theorem Drained.nil (h : ∀ row ∈ s.table.rows, Sane row) : Drained s [] [] s := by
  refine ⟨?_, h, fun poll => by simp⟩
  have hnone : owed [] = 0 := rfl
  rw [hnone, add_zero]

theorem Drained.others {rows : List OutboxEvent} {t' : Outbox} (h : Drained s polls new t)
    (hdone : t'.done = t.done) (hpending : ∀ poll : Poll, (pending poll.status t').Perm
      (pending poll.status t ++ rows.filter (fun row => row.status = poll.status)))
    (hsane : ∀ row ∈ rows, Sane row) : Drained s polls (new ++ rows) t' := by
  refine ⟨?_, fun row hm poll hstatus => ?_, fun poll => ?_⟩
  · have howed : owed t'.table.rows = owed t.table.rows + owed rows := by
      have hinit := (due_perm .handleInitEvents (hpending .handleInitEvents)).trans
        (due_append _ _)
      have hfail := (due_perm .handleFailedEvents (hpending .handleFailedEvents)).trans
        (due_append _ _)
      simp only [Poll.status] at hinit hfail
      rw [owed_table, owed_table, hinit, hfail, owed]
      exact add_add_add_comm _ _ _ _
    have hnew : owed (new ++ rows) = owed new + owed rows := by
      simp only [owed, List.filter_append, due_append]
      exact add_add_add_comm _ _ _ _
    rw [hdone, howed, hnew, ← add_assoc, h.balance, add_assoc]
  · have hin := (hpending poll).mem_iff.mp (mem_pending.mpr ⟨hm, hstatus⟩)
    obtain hold | hnew := List.mem_append.mp hin
    · exact h.sane row (mem_pending.mp hold).1 poll hstatus
    · exact hsane row (List.mem_of_mem_filter hnew) poll hstatus
  · have hlength := (hpending poll).length_eq
    rw [List.length_append] at hlength
    rw [List.filter_append, List.length_append]
    have hleft := h.left poll
    omega

theorem Drained.batch {rows : List OutboxEvent} {stocks : Decimal → Bool} {tasks : EventTasks} {u : Outbox}
    (h : Drained s polls new t) (hfinds : t.table.Finds poll.status rows)
    (hsteps : Steps 5 (handle poll) (Outbox.smooth stocks) (start (rows.map OutboxEventModel.from), t)
      (tasks, u))
    (hover : Over tasks) : Drained s (polls ++ [poll]) new u := by
  have hread : ∀ row ∈ rows, Readable poll row := by
    intro row hm
    obtain ⟨order, hperm, rfl⟩ := hfinds
    obtain ⟨hrow, hstatus⟩ := List.mem_filter.mp (hperm.mem_iff.mp (List.mem_of_mem_take hm))
    exact h.sane row hrow poll (of_decide_eq_true hstatus)
  obtain ⟨hall, hmarked, hdone⟩ := smooth_batch hfinds hread hsteps hover
  obtain ⟨hperm, hlength⟩ := hmarked.pending hfinds hall
  refine ⟨?_, fun row hm poll' hstatus => ?_, fun poll' => ?_⟩
  · have howed : owed t.table.rows = due poll rows + owed u.table.rows := by
      have hsplit := (due_perm poll hperm).trans (due_append rows _)
      cases poll with
      | handleInitEvents =>
        rw [owed_table, owed_table, hmarked.others hfinds .fail (by rintro ⟨⟩) (by rintro ⟨⟩)]
        rw [Poll.status] at hsplit
        rw [hsplit, add_assoc]
      | handleFailedEvents =>
        rw [owed_table, owed_table, hmarked.others hfinds .init (by rintro ⟨⟩) (by rintro ⟨⟩)]
        rw [Poll.status] at hsplit
        rw [hsplit, add_left_comm]
    rw [hdone, ← h.balance, howed, ← add_assoc]
    rfl
  · obtain ⟨done, _, htable⟩ := hmarked
    rw [htable] at hm
    obtain ⟨old, hold, rfl⟩ := List.mem_map.mp hm
    by_cases hin : rowKey old ∈ done
    · rw [markAll, if_pos hin] at hstatus
      exact absurd hstatus.symm (Poll.status_ne_success poll')
    · rw [markAll_not_mem hin] at hstatus ⊢
      exact h.sane old hold poll' hstatus
  · have hleft := h.left poll'
    rw [List.count_append]
    by_cases hsame : poll' = poll
    · subst hsame
      rw [List.count_singleton_self]
      omega
    · have hother : poll'.status ≠ poll.status := by
        cases poll' with
        | handleInitEvents => cases poll with
          | handleInitEvents => exact absurd rfl hsame
          | handleFailedEvents => rintro ⟨⟩
        | handleFailedEvents => cases poll with
          | handleInitEvents => rintro ⟨⟩
          | handleFailedEvents => exact absurd rfl hsame
      rw [hmarked.others hfinds _ (Poll.status_ne_success poll') hother,
        List.count_singleton, if_neg (by simpa using Ne.symm hsame)]
      exact hleft

/-- When no promise is rejected, every message and every compensation that the table asks for,
whoever wrote its row and whenever, is done once or waits still; and after `k` polls of a status
what waits with it is at most what is beyond `500 * k` of the rows that waited and what came
after. -/
theorem drains (hsane : ∀ row ∈ s.table.rows, Sane row) (h : Drains s polls new t) :
    (t.done : Multiset Deed) + owed t.table.rows = s.done + owed s.table.rows + owed new ∧
      ∀ poll : Poll, (pending poll.status t).length ≤
        ((pending poll.status s).length - 500 * polls.count poll) +
          (new.filter (fun row => row.status = poll.status)).length := by
  have hdrained : Drained s polls new t := by
    induction h with
    | nil => exact .nil hsane
    | others _ hdone hpending hrows ih => exact ih.others hdone hpending hrows
    | poll _ hfinds hsteps hover ih => exact ih.batch hfinds hsteps hover
  exact ⟨hdrained.balance, hdrained.left⟩

def unpaidCompensated : Outbox := unpaidSettled (.compensated unpaidEvent unpaidRow.payload)

/-- The message of the first order is sent, the failed payment comes in between, and nothing waits
after the second poll. -/
theorem drains_created : Drains created [.handleInitEvents, .handleFailedEvents] [unpaidRow] unpaidCompensated ∧
    (unpaidCompensated.done : Multiset Deed) =
      {createdMessage} + {.compensated unpaidEvent unpaidRow.payload} ∧
    ∀ poll : Poll, (pending poll.status unpaidCompensated).length = 0 := by
  have hemit : Outbox.smooth (fun _ => true) (.emit OutboxEventTypes.orderCreated (some (.string "7"))
      createdEvent.payload) created true ⟨created.table, [createdMessage]⟩ := ⟨⟨rfl, .inl rfl⟩, rfl⟩
  have hsent : Outbox.smooth (fun _ => true) (.update "7" OutboxEventTypes.orderCreated .success)
      ⟨created.table, [createdMessage]⟩ true createdSent := ⟨⟨⟨by decide, rfl⟩, rfl⟩, rfl⟩
  have hcompensate : Outbox.smooth (fun _ => true) (.compensate unpaidEvent unpaidRow.payload) unpaid .carriedOut
      ⟨unpaid.table, unpaid.done ++ [.compensated unpaidEvent unpaidRow.payload]⟩ :=
    ⟨⟨⟨⟨by rintro ⟨⟩, rfl⟩, rfl⟩, rfl⟩, rfl⟩
  have hsettled : Outbox.smooth (fun _ => true) (.update "8" OutboxEventTypes.orderPayment .success)
      ⟨unpaid.table, unpaid.done ++ [.compensated unpaidEvent unpaidRow.payload]⟩ true unpaidCompensated :=
    ⟨⟨⟨by decide, rfl⟩, rfl⟩, rfl⟩
  have hunpaid : ∀ row ∈ [unpaidRow], Sane row := by
    intro row hm poll hstatus
    obtain rfl := List.mem_singleton.mp hm
    cases poll with
    | handleInitEvents => cases hstatus
    | handleFailedEvents => exact ⟨unpaidRow.payload, rfl, by rintro ⟨⟩⟩
  have hsane : ∀ row ∈ created.table.rows, Sane row := by
    intro row hm poll _
    obtain rfl := List.mem_singleton.mp hm
    exact ⟨createdRow.payload, rfl, fun _ => .inr ⟨by decide, by decide⟩⟩
  have hfirst : Drains created [.handleInitEvents] [] createdSent :=
    .poll .nil created_finds (created_steps hemit hsent) (by simp [Over, Task.isOver])
  have hwritten : Drains created [.handleInitEvents] [unpaidRow] unpaid := by
    refine .others hfirst rfl (fun poll => ?_) hunpaid
    cases poll with
    | handleInitEvents => exact .refl _
    | handleFailedEvents => exact .refl _
  have hdrains : Drains created [.handleInitEvents, .handleFailedEvents] [unpaidRow] unpaidCompensated :=
    .poll hwritten unpaid_finds (unpaid_steps (.inl rfl) hcompensate hsettled) (by simp [Over, Task.isOver])
  have hbalance := (drains hsane hdrains).1
  have howed : owed created.table.rows = {createdMessage} := by
    have hwait : created.table.rows.filter (fun row => row.status = .init) = [createdRow] := rfl
    have hdue : due .handleInitEvents [createdRow] = [createdMessage] := by
      simp only [due, List.filterMap_cons, deed_createdRow, List.filterMap_nil]
    rw [owed, hwait, hdue]
    rfl
  have hnew : owed [unpaidRow] = {.compensated unpaidEvent unpaidRow.payload} := by
    have hwait : [unpaidRow].filter (fun row => row.status = .fail) = [unpaidRow] := rfl
    have hdue : due .handleFailedEvents [unpaidRow] = [.compensated unpaidEvent unpaidRow.payload] := by
      simp only [due, List.filterMap_cons, deed_unpaidRow, List.filterMap_nil]
    rw [owed, hwait, hdue]
    rfl
  have hnothing : owed unpaidCompensated.table.rows = 0 := rfl
  refine ⟨hdrains, ?_, fun poll => ?_⟩
  · rw [hnothing, howed, hnew, add_zero] at hbalance
    rw [hbalance]
    exact congrArg (· + _) (zero_add _)
  · cases poll with
    | handleInitEvents => rfl
    | handleFailedEvents => rfl

end Drain

end EcommerceService.Delivery
