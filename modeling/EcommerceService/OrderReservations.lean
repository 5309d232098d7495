import Mathlib.Algebra.Order.BigOperators.Group.List
import EcommerceService.OrderCalls
import EcommerceService.ReservationCap

namespace EcommerceService.OrderReservations

open EcommerceService.Effects EcommerceService.Errors EcommerceService.Models
open EcommerceService.SortedSets EcommerceService.Cache EcommerceService.Storefront
open EcommerceService.Storefront.ProductStockCacheStore EcommerceService.Pool
open EcommerceService.Histories EcommerceService.Shop EcommerceService.Reservations
open EcommerceService.OrderCalls

/-- The calls of `OrderFacade.order` that have come to their transaction. -/
def placed (w : List (OrderCall × Answered)) : List OrderCall :=
  (w.filter (fun e => places e.2)).map Prod.fst

/-- The units of the product that were asked for by those of them that are less than 300
seconds old at the second `now`. -/
def promised (p now : ℕ) (w : List (OrderCall × Answered)) : ℕ :=
  (((placed w).filter (fun j => now < j.second + ttl)).map (fun j => requested p j.items)).sum

section Effects

variable {j : OrderCall} {h : Calls} {s t : State} {q : Request} {r : q.Reply}

theorem exec_plain (hq : Plain q) (h : State.exec q s r t) :
    s.clock ≤ t.clock ∧ t.reservations = s.reservations ∧ s.issued ⊆ t.issued := by
  have hclock := exec_clock h
  obtain ⟨u, ms, hact, rfl⟩ := h
  refine ⟨hclock, ?_⟩
  obtain rfl | ⟨d, rfl, rfl⟩ | ⟨id, rfl, rfl⟩ | ⟨id, data, rfl, rfl⟩ | ⟨b, w, rfl, rfl⟩ := act_cases hact
  · exact ⟨rfl, List.Subset.refl _⟩
  · cases d with
    | zadd _ _ _ => exact hq.elim
    | zremrangebyscore _ _ _ => exact hq.elim
    | _ => exact ⟨rfl, List.Subset.refl _⟩
  · exact ⟨rfl, List.subset_cons_self _ _⟩
  · exact ⟨rfl, List.Subset.refl _⟩
  · exact hq.elim

/-- What a call of a process makes of the reservations: the units that are added, of which there
are as many as its answer confirms at least, and as many as it sends at most. -/
structure Moves (s t : State) (q : Request) (r : q.Reply) (units : List ReservedUnit) : Prop where
  adds : Adds units s t
  confirmed : ∀ p now, confirmed p now [⟨q, r⟩] ≤
    units.countP (fun unit => unit.productId = p && live now unit.score)
  sent : ∀ p now, units.countP (fun unit => unit.productId = p && live now unit.score) ≤
    sent p now [⟨q, r⟩]
  members : ∀ p m k, (t.reservations p).Has m k →
    (s.reservations p).Has m k ∨ m ∈ members [⟨q, r⟩]

theorem Moves.same (hs : Known s) (h : s.clock ≤ t.clock ∧ t.reservations = s.reservations ∧
    s.issued ⊆ t.issued) (hq : ∀ p now, OrderCalls.confirmed p now [⟨q, r⟩] = 0) :
    Moves s t q r [] := by
  obtain ⟨hclock, hr, hissued⟩ := h
  refine ⟨.of_same hs hr hissued hclock, ?_, ?_, fun p m k hm => .inl (hr ▸ hm)⟩
  · simp [hq]
  · simp

theorem Moves.purge {p now ms : ℕ} {r : Option ℕ} (hs : Known s) (hnow : now ≤ s.second) :
    Moves s ((s.send (purge p now)).wait ms) (.redis (purge p now)) r [] := by
  refine ⟨adds_purge hs hnow, fun _ _ => le_rfl, fun _ _ => le_rfl, fun p' m k hm => .inl ?_⟩
  rw [wait_reservations, send_reservations (p := p) rfl] at hm
  by_cases hp : p' = p
  · subst hp
    rw [Function.update_self] at hm
    exact (SortedSet.has_remove.mp hm).1
  · rwa [Function.update_of_ne hp] at hm

theorem Moves.unit {p userId seq score ms : ℕ} {id : Uuid} {r : Option ℕ} (hs : Known s)
    (hid : id ∈ s.issued) (hnew : ∀ k, ¬ (s.reservations p).Has (member userId id seq) k) :
    Moves s ((s.send (addition p score (member userId id seq))).wait ms)
      (.redis (addition p score (member userId id seq))) r
      [⟨p, member userId id seq, score⟩] := by
  have hsent : ∀ p' now, OrderCalls.sent p' now
      [⟨.redis (addition p score (member userId id seq)), r⟩] =
        [(⟨p, member userId id seq, score⟩ : ReservedUnit)].countP
          (fun unit => unit.productId = p' && live now unit.score) := by
    intro p' now
    simp [OrderCalls.sent, addition, additionOf, Addition.counts]
  refine ⟨adds_unit hs hid hnew, fun p' now => ?_, fun p' now => (hsent p' now).ge, fun p' m k hm => ?_⟩
  · rw [← hsent]
    exact List.countP_mono_left (fun a _ ha => (Bool.and_eq_true_iff.mp ha).2)
  · rw [wait_reservations, send_reservations (p := p) rfl] at hm
    by_cases hp : p' = p
    · subst hp
      rw [Function.update_self, SortedSet.has_add] at hm
      obtain ⟨rfl, _⟩ | ⟨_, hm⟩ := hm
      · exact .inr (List.mem_singleton.mpr rfl)
      · exact .inl hm
    · rw [Function.update_of_ne hp] at hm
      exact .inl hm

/-- What the process relies on of its own history: its times are past, its ids are issued, and it
has added the units under them. -/
structure Owned (s : State) (h : Calls) : Prop where
  times : ∀ ms, (⟨.dateNow, ms⟩ : Answered) ∈ h → ms ≤ s.clock
  issued : ∀ id ∈ made h, id ∈ s.issued
  mine : ∀ id ∈ made h, ∀ p userId seq k, (s.reservations p).Has (member userId id seq) k →
    member userId id seq ∈ members h

theorem exec_moves (hexec : State.exec q s r t) (hs : Known s) (hmay : may j q h)
    (hown : Owned s h) : ∃ units, Moves s t q r units := by
  have hplain : Plain q → (∀ p now, confirmed p now [⟨q, r⟩] = 0) → ∃ units, Moves s t q r units :=
    fun hq hnone => ⟨[], .same hs (exec_plain hq hexec) hnone⟩
  cases q with
  | redis d =>
    cases d with
    | zadd key score m =>
      obtain ⟨⟨p, rfl⟩, ⟨id, seq, hid, rfl⟩, hnew⟩ := hmay
      have hfresh : ∀ k, ¬ (s.reservations p).Has (member j.userId id seq) k :=
        fun k hm => hnew (hown.mine id hid p _ seq k hm)
      obtain ⟨u, ms, hact, rfl⟩ := hexec
      cases r with
      | some n =>
        obtain ⟨_, rfl⟩ := hact
        exact ⟨_, .unit hs (hown.issued id hid) hfresh⟩
      | none =>
        obtain rfl | rfl := hact
        · exact ⟨[], .same hs ⟨Nat.le_add_right _ _, rfl, List.Subset.refl _⟩ (fun _ _ => rfl)⟩
        · exact ⟨_, .unit hs (hown.issued id hid) hfresh⟩
    | zremrangebyscore key min max =>
      obtain ⟨⟨p, rfl⟩, rfl, ms, hms, rfl⟩ := hmay
      have hnow : ms / 1000 ≤ s.second := Nat.div_le_div_right (hown.times ms hms)
      obtain ⟨u, ms', hact, rfl⟩ := hexec
      cases r with
      | some n =>
        obtain ⟨_, rfl⟩ := hact
        exact ⟨[], .purge hs hnow⟩
      | none =>
        obtain rfl | rfl := hact
        · exact ⟨[], .same hs ⟨Nat.le_add_right _ _, rfl, List.Subset.refl _⟩ (fun _ _ => rfl)⟩
        · exact ⟨[], .purge hs hnow⟩
    | _ => exact hplain trivial (fun _ _ => rfl)
  | backend b =>
    obtain ⟨u, ms, ⟨w, _, rfl⟩, rfl⟩ := hexec
    exact ⟨[], .same hs ⟨Nat.le_add_right _ _, rfl, List.Subset.refl _⟩ (fun _ _ => rfl)⟩
  | _ => exact hplain trivial (fun _ _ => rfl)

theorem exec_made (hexec : State.exec q s r t) {id : Uuid} (hid : id ∈ made [⟨q, r⟩]) :
    id ∉ s.issued ∧ id ∈ t.issued ∧ members [⟨q, r⟩] = [] := by
  cases q with
  | randomUUID =>
    obtain ⟨hnew, ms, rfl⟩ := exec_randomUUID hexec
    obtain rfl : id = r := List.mem_singleton.mp hid
    exact ⟨hnew, List.mem_cons_self, rfl⟩
  | _ => exact absurd hid List.not_mem_nil

theorem exec_genuine (hexec : State.exec q s r t) (hbegun : j.second ≤ s.second) (hown : Owned s h) :
    genuine j q h r := by
  cases q with
  | dateNow =>
    obtain ⟨rfl, _⟩ := exec_dateNow hexec
    exact hbegun
  | randomUUID => exact fun hid => (exec_randomUUID hexec).1 (hown.issued _ hid)
  | _ => trivial

variable {units : List ReservedUnit}

theorem Owned.call (hown : Owned s h) (hs : Known s) (hexec : State.exec q s r t)
    (hmoves : Moves s t q r units) : Owned t (h ++ [⟨q, r⟩]) where
  times ms hms := by
    obtain hms | hms := List.mem_append.mp hms
    · exact (hown.times ms hms).trans hmoves.adds.clock
    · cases List.mem_singleton.mp hms
      obtain ⟨rfl, _⟩ := exec_dateNow hexec
      exact hmoves.adds.clock
  issued id hid := by
    rw [made_append, List.mem_append] at hid
    exact hid.elim (fun hid => hmoves.adds.issued (hown.issued id hid))
      (fun hid => (exec_made hexec hid).2.1)
  mine id hid p userId seq k hm := by
    rw [made_append, List.mem_append] at hid
    rw [members_append, List.mem_append]
    obtain hm | hm := hmoves.members p _ k hm
    · obtain hid | hid := hid
      · exact .inl (hown.mine id hid p userId seq k hm)
      · obtain ⟨u, id', seq', heq, hid'⟩ := hs p _ k hm
        obtain ⟨_, rfl, _⟩ := member_inj heq
        exact absurd hid' (exec_made hexec hid).1
    · exact .inr hm

theorem Owned.other {h' : Calls} (hown : Owned s h') (hmoves : Moves s t q r units)
    (hmay : may j q h) (hapart : ∀ id ∈ made h, id ∉ made h') : Owned t h' where
  times ms hms := (hown.times ms hms).trans hmoves.adds.clock
  issued id hid := hmoves.adds.issued (hown.issued id hid)
  mine id hid p userId seq k hm := by
    obtain hm | hm := hmoves.members p _ k hm
    · exact hown.mine id hid p userId seq k hm
    · cases q with
      | redis d =>
        cases d with
        | zadd key score m =>
          obtain ⟨_, ⟨id', seq', hid', rfl⟩, _⟩ := hmay
          obtain ⟨_, rfl, _⟩ := member_inj (List.mem_singleton.mp hm)
          exact absurd hid (hapart _ hid')
        | _ => exact absurd hm List.not_mem_nil
      | _ => exact absurd hm List.not_mem_nil

theorem Owned.elsewhere (hown : Owned s h) (henv : elsewhere s t) : Owned t h := by
  obtain ⟨hclock, hr, hissued⟩ := henv
  exact ⟨fun ms hms => (hown.times ms hms).trans hclock, fun id hid => hissued (hown.issued id hid),
    fun id hid p userId seq k hm => hown.mine id hid p userId seq k (hr ▸ hm)⟩

theorem Owned.nil (s : State) : Owned s [] := ⟨fun _ => nofun, fun _ => nofun, fun _ => nofun⟩

end Effects

section Runs

variable {s : State} {own : ℕ → Calls} {w : List (OrderCall × Answered)} {c : Configuration}
  {r : Record ℕ OrderCall Request Request.Reply State}
  {ok : Configuration → Label ℕ OrderCall Request Request.Reply → Prop}

/-- The confirmed units of a process that has not come to its transaction. -/
def held (p now : ℕ) (h : Calls) : ℕ := if h.any places then 0 else confirmed p now h

@[simp] theorem promised_append (p now : ℕ) (w w' : List (OrderCall × Answered)) :
    promised p now (w ++ w') = promised p now w + promised p now w' := by
  simp [promised, placed]

/-- A process that comes to its transaction holds what it is promised. -/
theorem held_call {j : OrderCall} {q : Request} {h : Calls} (p now : ℕ) (r : q.Reply)
    (hmay : may j q h) : promised p now [(j, ⟨q, r⟩)] + held p now (h ++ [⟨q, r⟩]) ≤
      held p now h + confirmed p now [⟨q, r⟩] := by
  cases hq : places ⟨q, r⟩ with
  | false =>
    have hnone : promised p now [(j, ⟨q, r⟩)] = 0 := by simp [promised, placed, hq]
    have hany : (h ++ [(⟨q, r⟩ : Answered)]).any places = h.any places := by
      simp only [List.any_append, List.any_cons, List.any_nil, hq, Bool.or_false]
    rw [hnone, held, held, hany, confirmed_append]
    split <;> omega
  | true =>
    cases q with
    | backend b =>
      obtain ⟨hbefore, hunits⟩ := hmay
      have hany : (h ++ [(⟨.backend b, r⟩ : Answered)]).any places = true := by
        simp only [List.any_append, List.any_cons, hq, Bool.true_or, Bool.or_true]
      rw [held, held, hany, hbefore]
      by_cases hnow : now < j.second + ttl
      · have hpromised : promised p now [(j, ⟨.backend b, r⟩)] = requested p j.items := by
          simp [promised, placed, places, hnow]
        have hle := hunits p now hnow
        simp only [hpromised, if_true, Bool.false_eq_true, if_false]
        omega
      · simp [promised, placed, places, hnow]
    | _ => cases hq

/-- The account of the reservations after a run from `s`: each process owns its ids and obeys
its rule, and what the transactions were promised and the other processes hold was confirmed. -/
structure Account (s : State) (own : ℕ → Calls) (w : List (OrderCall × Answered))
    (c : Configuration) : Prop where
  obey : AllObey genuine may (fun _ _ _ => True) own c
  begun : ∀ i j q, c.pool i = some (j, q) → j.second ≤ c.shared.second
  owned : ∀ i, Owned c.shared (own i)
  apart : ∀ i i', i' ≠ i → ∀ id ∈ made (own i), id ∉ made (own i')
  ledger : ∃ units, Adds units s c.shared ∧ ∀ p now, confirmed p now (w.map Prod.snd) ≤
      units.countP (fun unit => unit.productId = p && live now unit.score) ∧
    units.countP (fun unit => unit.productId = p && live now unit.score) ≤ sent p now (w.map Prod.snd)
  budget : ∀ p now (others : Finset ℕ), promised p now w + ∑ i ∈ others, held p now (own i) ≤
    confirmed p now (w.map Prod.snd)

theorem Account.quiet (hs : Known s) : Account s (fun _ => []) [] (Pool.quiet s) where
  obey _ _ _ h := nomatch h
  begun _ _ _ h := nomatch h
  owned _ := .nil s
  apart _ _ _ _ := nofun
  ledger := ⟨[], .refl hs, fun _ _ => ⟨le_rfl, le_rfl⟩⟩
  budget p now others := by simp [promised, placed, held, confirmed]

theorem sum_held {p now i : ℕ} {h : Calls} (others : Finset ℕ) :
    ∑ i' ∈ others, held p now (Function.update own i h i') =
      ∑ i' ∈ others, Function.update (fun i' => held p now (own i')) i (held p now h) i' :=
  Finset.sum_congr rfl (fun i' _ => Function.apply_update (fun _ => held p now) own i h i')

theorem Account.reset {i : ℕ} {pool : ℕ → Option (OrderCall × Shopping (CreateOrderInfo ⊕ String))}
    (h : Account s own w c) (hobey : AllObey genuine may (fun _ _ _ => True) (Function.update own i [])
      ⟨c.shared, pool⟩)
    (hbegun : ∀ i j q, pool i = some (j, q) → j.second ≤ c.shared.second) :
    Account s (Function.update own i []) w ⟨c.shared, pool⟩ where
  obey := hobey
  begun := hbegun
  owned i' := by
    by_cases hi : i' = i
    · subst hi
      simpa using Owned.nil c.shared
    · simpa [hi] using h.owned i'
  apart i₁ i₂ hne id hid := by
    by_cases h₁ : i₁ = i
    · subst h₁
      simp [made] at hid
    · rw [Function.update_of_ne h₁] at hid
      by_cases h₂ : i₂ = i
      · subst h₂
        simp [made]
      · rw [Function.update_of_ne h₂]
        exact h.apart i₁ i₂ hne id hid
  ledger := h.ledger
  budget p now others := by
    rw [sum_held]
    refine budget_update (h.budget p now) (fun rest _ hrest => ?_) others
    have hnone : held p now [] = 0 := rfl
    omega

theorem Account.known (h : Account s own w c) : Known c.shared := by
  obtain ⟨units, hadds, _⟩ := h.ledger
  exact hadds.known

theorem Account.call {i : ℕ} {j : OrderCall} {q : Request} {r : q.Reply} {t : State}
    {k : q.Reply → Shopping (CreateOrderInfo ⊕ String)} (h : Account s own w c)
    (hi : c.pool i = some (j, .perform q k)) (hexec : State.exec q c.shared r t)
    (hobey : AllObey genuine may (fun _ _ _ => True) (Function.update own i (own i ++ [⟨q, r⟩]))
      ⟨t, Function.update c.pool i (some (j, k r))⟩) :
    Account s (Function.update own i (own i ++ [⟨q, r⟩])) (w ++ [(j, ⟨q, r⟩)])
      ⟨t, Function.update c.pool i (some (j, k r))⟩ := by
  have hmay : may j q (own i) := (h.obey i j _ hi).1
  have hknown := h.known
  obtain ⟨units, hmoves⟩ := exec_moves hexec hknown hmay (h.owned i)
  have hsecond := second_mono hmoves.adds.clock
  have hfresh : ∀ i', i' ≠ i → ∀ id ∈ made [⟨q, r⟩], id ∉ made (own i') :=
    fun i' _ id hid hid' => (exec_made hexec hid).1 ((h.owned i').issued id hid')
  refine ⟨hobey, fun i' j' p hp => ?_, fun i' => ?_, fun i₁ i₂ hne id hid => ?_, ?_,
    fun p now others => ?_⟩
  · obtain ⟨rfl, hv⟩ | ⟨_, hp⟩ := pool_update hp
    · obtain ⟨rfl, _⟩ := Prod.mk.inj (Option.some.inj hv)
      exact (h.begun _ _ _ hi).trans hsecond
    · exact (h.begun i' j' p hp).trans hsecond
  · by_cases hi' : i' = i
    · subst hi'
      rw [Function.update_self]
      exact (h.owned i').call hknown hexec hmoves
    · rw [Function.update_of_ne hi']
      exact (h.owned i').other hmoves hmay (h.apart i i' hi')
  · by_cases h₁ : i₁ = i
    · subst h₁
      rw [Function.update_self, made_append, List.mem_append] at hid
      rw [Function.update_of_ne hne]
      exact hid.elim (h.apart i₁ i₂ hne id) (hfresh i₂ hne id)
    · rw [Function.update_of_ne h₁] at hid
      by_cases h₂ : i₂ = i
      · subst h₂
        rw [Function.update_self, made_append, List.mem_append, not_or]
        exact ⟨h.apart i₁ i₂ hne id hid, fun hnew => hfresh i₁ h₁ id hnew hid⟩
      · rw [Function.update_of_ne h₂]
        exact h.apart i₁ i₂ hne id hid
  · obtain ⟨old, hadds, hcounts⟩ := h.ledger
    refine ⟨old ++ units, hadds.trans hmoves.adds, fun p now => ?_⟩
    obtain ⟨hconfirmed, hsent⟩ := hcounts p now
    rw [List.map_append, confirmed_append, sent_append, List.countP_append]
    exact ⟨add_le_add hconfirmed (hmoves.confirmed p now), add_le_add hsent (hmoves.sent p now)⟩
  · rw [sum_held, promised_append, List.map_append, confirmed_append]
    refine budget_update (h.budget p now) (fun rest _ hrest => ?_) others
    have hcall := held_call p now r hmay
    have hmap : confirmed p now ([(j, (⟨q, r⟩ : Answered))].map Prod.snd) =
        confirmed p now [⟨q, r⟩] := rfl
    omega

theorem Account.step {c' : Configuration} {l : Label ℕ OrderCall Request Request.Reply}
    (h : Account s own w c) (hs : Step orders c l c') :
    Account s (keep own l) (w ++ entry c l) c' := by
  have hobey : AllObey genuine may (fun _ _ _ => True) (keep own l) c' := by
    refine h.obey.step obeys_order hs ?_
    rintro i j p q r rfl hp
    cases hs with
    | call hi hexec =>
      obtain ⟨rfl, rfl⟩ := Prod.mk.inj (Option.some.inj (hi.symm.trans hp))
      exact exec_genuine hexec (h.begun i _ _ hi) (h.owned i)
  cases hs with
  | @env s' henv =>
    obtain ⟨units, hadds, hcounts⟩ := h.ledger
    have hsame : Adds [] c.shared s' := .of_same h.known henv.2.1 henv.2.2 henv.1
    have hpool : Account s own w ⟨s', c.pool⟩ := ⟨hobey,
      fun i j q hq => (h.begun i j q hq).trans (second_mono henv.1),
      fun i => (h.owned i).elsewhere henv, h.apart,
      ⟨units, by simpa using hadds.trans hsame, hcounts⟩, h.budget⟩
    simpa [keep, entry] using hpool
  | @start i j _ hi hstart =>
    obtain ⟨hsecond, rfl⟩ := hstart
    have hreset := h.reset hobey (fun i' j' q hq => by
      obtain ⟨rfl, hv⟩ | ⟨_, hq⟩ := pool_update hq
      · obtain ⟨rfl, _⟩ := Prod.mk.inj (Option.some.inj hv)
        exact hsecond.le
      · exact h.begun i' j' q hq)
    simpa [keep, entry] using hreset
  | @call i j q k r t hi hexec =>
    have hentry : entry c (.call i q r) = [(j, ⟨q, r⟩)] := by simp [entry, hi]
    rw [hentry]
    exact h.call hi hexec hobey
  | @stop i =>
    have hreset := h.reset hobey (fun i' j' q hq => by
      obtain ⟨_, hv⟩ | ⟨_, hq⟩ := pool_update hq
      · cases hv
      · exact h.begun i' j' q hq)
    simpa [keep, entry] using hreset

theorem Account.recorded (hs : Known s) (h : Recorded orders ok s r c) :
    Account s r.own r.calls c := by
  induction h with
  | quiet => exact .quiet hs
  | step _ hstep _ ih => exact ih.step hstep

theorem Account.covered (h : Account s own w c) (p : ℕ) :
    (s.reservations p).count (live c.shared.second) + confirmed p c.shared.second (w.map Prod.snd) ≤
        c.shared.liveCount p ∧
      c.shared.liveCount p ≤ (s.reservations p).count (live c.shared.second) +
        sent p c.shared.second (w.map Prod.snd) := by
  obtain ⟨units, hadds, hcounts⟩ := h.ledger
  obtain ⟨hconfirmed, hsent⟩ := hcounts p c.shared.second
  have hlive : c.shared.liveCount p = _ := hadds.count p c.shared.second le_rfl
  omega

def rival : OrderCall := ⟨0, 8, Checkout.basket⟩

abbrev Reading (q : Request) (s : State) (r : q.Reply) (t : State) : Prop :=
  State.exec q s r t ∧ ReservationCap.Stocked 1 10 q r

theorem front_stocked {q : Request} {r : q.Reply} {t u : State} (hq : Checkout.Front q)
    (hexec : State.exec q t r u) (ht : t.world.store.db.productStock 1 = some 10) :
    u.world.store.db.productStock 1 = some 10 := by
  rwa [ReservationCap.exec_world (fun b hb => by subst hb; exact hq) hexec]

theorem fronted_reads {A : Type} {q : Shopping A} {t u : State} {x : Exit Error A}
    (hq : Checkout.Fronted q) (ht : t.world.store.db.productStock 1 = some 10)
    (hr : Effect.Runs State.exec q t x u) : Effect.Runs Reading q t x u :=
  (hq.runs_kept hr ht (fun _ _ _ _ _ _ => trivial) (fun _ _ _ _ => front_stocked)).mono
    (fun _ _ _ _ h => ⟨h.1, ReservationCap.exec_stocked h.2 h.1⟩)

theorem customer_comes (redis : Redis) (hknown : Known { Checkout.counter with redis := redis })
    (hnone : ∀ p, ({ Checkout.counter with redis := redis } : State).liveCount p = 0) : ∃ redis',
      Effect.Comes Reading (OrderFacade.order 7 Checkout.basket) { Checkout.counter with redis := redis }
        (.backend (Checkout.orderCall 7 Checkout.picnic.commands))
        { Checkout.counter with redis := redis', issued := [Checkout.secondId, firstId] } := by
  obtain ⟨redis', hreserve⟩ := Checkout.basket_reserved 7 hknown hnone
  obtain ⟨redis'', hpriced⟩ := Checkout.basket_priced redis'
  exact ⟨redis'', Effect.comes_catchAll.mpr (.inl (Effect.comes_map.mpr (Effect.comes_flatMap.mpr (.inr ⟨_, _,
    Effect.runs_flatMap_success.mpr ⟨_, _,
      fronted_reads (Checkout.reserveStock_fronted 7 Checkout.basket) rfl hreserve,
      fronted_reads (OrderFacade.confined_createOrderItemCommands Checkout.getBy_fronted) rfl hpriced⟩,
    .here⟩))))⟩

theorem picnic_commits (redis : Redis) (issued : List Uuid) :
    State.exec (.backend (Checkout.orderCall 7 Checkout.picnic.commands))
      { Checkout.counter with redis := redis, issued := issued } (.resolved Checkout.picnic.info)
      { Checkout.counter with
        redis := redis, issued := issued,
        world := Checkout.picnic.opening.commit .order Checkout.picnic.orderedStore } :=
  ⟨_, 0, ⟨_, ⟨_, Checkout.picnic.ordering_runs, rfl⟩, rfl⟩, rfl⟩

end Runs

end EcommerceService.OrderReservations
