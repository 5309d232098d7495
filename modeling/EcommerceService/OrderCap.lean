import Mathlib.Algebra.Group.Action.Defs
import Mathlib.Algebra.Order.BigOperators.Group.Finset
import EcommerceService.OrderReservations

namespace EcommerceService.OrderCap

open EcommerceService.Effects EcommerceService.Errors EcommerceService.Models
open EcommerceService.Cache EcommerceService.Storefront EcommerceService.Storefront.ProductService
open EcommerceService.Pool EcommerceService.Histories EcommerceService.Shop
open EcommerceService.Reservations EcommerceService.OrderCalls EcommerceService.OrderReservations
open EcommerceService.ReservationCap (pending Orderly Stocked additions outstanding
  outstanding_update exec_liveCount exec_zcount)

/-- A count that leaves room for the units under the cap, of which at most `units` are added. -/
def Leaves (stock : ℤ) (units n after : ℕ) : Prop := after ≤ units ∧ (n : ℤ) + after ≤ cap stock

section Programs

variable {A B : Type} {p units : ℕ} {stock : ℤ} {admits : ℕ → ℕ → Prop}

theorem pending_flatMap {f : A → Shopping B} (q : Shopping A) (hf : ∀ a, pending p (f a) = 0) :
    pending p (q.flatMap f) = pending p q := by
  induction q with
  | succeed a => exact hf a
  | fail e => rfl
  | die => rfl
  | perform c k ih =>
    cases c with
    | redis d =>
      cases d with
      | zadd key score m => exact congrArg (· + _) (ih (some 1))
      | _ => rfl
    | dateNow => exact ih 0
    | randomUUID => exact ih firstId
    | _ => rfl

theorem pending_catchAll {f : Error → Shopping A} (q : Shopping A) (hf : ∀ e, pending p (f e) = 0) :
    pending p (q.catchAll f) = pending p q := by
  induction q with
  | succeed a => rfl
  | fail e => exact hf e
  | die => rfl
  | perform c k ih =>
    cases c with
    | redis d =>
      cases d with
      | zadd key score m => exact congrArg (· + _) (ih (some 1))
      | _ => rfl
    | dateNow => exact ih 0
    | randomUUID => exact ih firstId
    | _ => rfl

/-- The program adds no unit before a count of its own that leaves room for it. -/
structure Counted {A : Type} (p : ℕ) (stock : ℤ) (admits : ℕ → ℕ → Prop) (q : Shopping A) : Prop where
  pending : pending p q = 0
  orderly : Orderly p stock admits q

theorem Counted.value (a : A) : Counted p stock admits (.succeed a) := ⟨rfl, trivial⟩

theorem Counted.error (e : Error) : Counted p stock admits (.fail e : Shopping A) := ⟨rfl, trivial⟩

theorem orderly_flatMap {f : A → Shopping B} {q : Shopping A} (hq : Orderly p stock admits q)
    (hf : ∀ a, Counted p stock admits (f a)) : Orderly p stock admits (q.flatMap f) := by
  induction q with
  | succeed a => exact (hf a).orderly
  | fail e => trivial
  | die => trivial
  | perform c k ih =>
    intro r hr
    obtain ⟨hrule, hrest⟩ := hq r hr
    have hbefore : pending p (.perform c (fun r => (k r).flatMap f)) = pending p (.perform c k) :=
      pending_flatMap (.perform c k) (fun a => (hf a).pending)
    refine ⟨?_, ih r hrest⟩
    rw [pending_flatMap _ (fun a => (hf a).pending), hbefore]
    exact hrule

theorem orderly_catchAll {f : Error → Shopping A} {q : Shopping A} (hq : Orderly p stock admits q)
    (hf : ∀ e, Counted p stock admits (f e)) : Orderly p stock admits (q.catchAll f) := by
  induction q with
  | succeed a => trivial
  | fail e => exact (hf e).orderly
  | die => trivial
  | perform c k ih =>
    intro r hr
    obtain ⟨hrule, hrest⟩ := hq r hr
    have hbefore : pending p (.perform c (fun r => (k r).catchAll f)) = pending p (.perform c k) :=
      pending_catchAll (.perform c k) (fun e => (hf e).pending)
    refine ⟨?_, ih r hrest⟩
    rw [pending_catchAll _ (fun e => (hf e).pending), hbefore]
    exact hrule

theorem Counted.flatMap {f : A → Shopping B} {q : Shopping A} (hq : Counted p stock admits q)
    (hf : ∀ a, Counted p stock admits (f a)) : Counted p stock admits (q.flatMap f) :=
  ⟨(pending_flatMap q (fun a => (hf a).pending)).trans hq.pending, orderly_flatMap hq.orderly hf⟩

theorem Counted.catchAll {f : Error → Shopping A} {q : Shopping A} (hq : Counted p stock admits q)
    (hf : ∀ e, Counted p stock admits (f e)) : Counted p stock admits (q.catchAll f) :=
  ⟨(pending_catchAll q (fun e => (hf e).pending)).trans hq.pending, orderly_catchAll hq.orderly hf⟩

theorem Counted.map {f : A → B} {q : Shopping A} (hq : Counted p stock admits q) :
    Counted p stock admits (q.map f) := hq.flatMap (fun a => .value (f a))

theorem Counted.all {qs : List (Shopping A)} (hqs : ∀ q ∈ qs, Counted p stock admits q) :
    Counted p stock admits (Effect.all qs) := by
  induction qs with
  | nil => exact .value []
  | cons q qs ih =>
    obtain ⟨hq, hqs⟩ := List.forall_mem_cons.mp hqs
    exact hq.flatMap (fun _ => (ih hqs).map)

theorem Counted.plain {Q : Error → Prop} {q : Shopping A}
    (hq : Effect.Confined Effect.anyAnswer Plain Q q) : Counted p stock admits q := by
  induction q with
  | succeed a => exact .value a
  | fail e => exact .error e
  | die => exact ⟨rfl, trivial⟩
  | perform c k ih =>
    obtain ⟨hc, hk⟩ := hq
    have hrest : ∀ r, ReservationCap.pending p (k r) = 0 := fun r => (ih r (hk r trivial)).pending
    have hnone : ReservationCap.pending p (Effect.perform c k) = 0 := by
      cases c with
      | redis d =>
        cases d with
        | zadd key score m => exact hc.elim
        | _ => rfl
      | dateNow => exact hrest 0
      | randomUUID => exact hrest firstId
      | _ => rfl
    refine ⟨hnone, fun r _ => ⟨?_, (ih r (hk r trivial)).orderly⟩⟩
    rw [hrest r]
    cases c with
    | redis d =>
      cases d with
      | zadd key score m => exact hc.elim
      | zcount key min max =>
        cases r with
        | none => exact Nat.zero_le _
        | some n => exact .inl (Nat.zero_le _)
      | _ => exact Nat.zero_le _
    | _ => exact Nat.zero_le _

theorem counted_order {j : OrderCall} (hitems : ∀ item ∈ j.items, item.quantity ≤ units) :
    Counted p stock (Leaves stock units) (orders.program j) := by
  have hsecond : Counted p stock (Leaves stock units) ProductStockCacheStore.second :=
    .plain (Q := fun _ => True) (Effect.confined_perform.mpr ⟨trivial, fun _ _ => Effect.confined_succeed⟩)
  have hreserve : Counted p stock (Leaves stock units) (OrderFacade.reserveStock j.userId j.items) := by
    refine Counted.flatMap (.all (fun q hq => ?_)) (fun nows => .all (fun q hq => ?_))
    · obtain ⟨item, _, rfl⟩ := List.mem_map.mp hq
      exact hsecond
    · obtain ⟨e, he, rfl⟩ := List.mem_map.mp hq
      have hunits := hitems e.2 (List.of_mem_zip he).2
      have hcall := @ReservationCap.orderly_program p stock
        (e.1, ⟨e.2.productId, j.userId, e.2.quantity⟩)
      refine ⟨rfl, hcall.mono ?_⟩
      rintro n after ⟨hquantity, hcap⟩
      simp only at hquantity hcap
      exact ⟨by omega, by omega⟩
  have hlook : Counted p stock (Leaves stock units) (OrderFacade.createOrderItemCommands j.items) :=
    .plain (Q := fun _ => True) (OrderFacade.confined_createOrderItemCommands (fun _ =>
      ProductService.confined_getBy (fun _ => trivial) (fun _ => trivial) trivial trivial trivial))
  have hplace : ∀ commands, Counted p stock (Leaves stock units) (OrderFacade.createOrder j.userId commands) := by
    intro commands
    rw [Checkout.createOrder_eq]
    refine ⟨rfl, fun r _ => ?_⟩
    cases r with
    | resolved info => exact ⟨Nat.zero_le _, trivial⟩
    | rejected e => exact ⟨Nat.zero_le _, trivial⟩
  refine Counted.catchAll ((hreserve.flatMap (fun _ => hlook)).flatMap hplace).map (fun e => ?_)
  split
  · exact .value _
  · exact .error _

end Programs

abbrev Action : Type 1 := Label ℕ OrderCall Request Request.Reply

/-- At most `most` calls are made at a time, each of at most `units` units of an item, and the
stock of the product reads as `stock`. -/
def Crowd (p : ℕ) (stock : ℤ) (most units : ℕ) (c : Configuration) : Action → Prop
  | .start i j => (∀ item ∈ j.items, item.quantity ≤ units) ∧
      ∀ others : Finset ℕ, (∀ i' ∈ others, c.pool i' ≠ none) → i ∉ others → others.card < most
  | .call _ (.findUniqueOrThrowProductStock p') (some n) => p' = p → n = stock
  | _ => True

structure Idle (p : ℕ) (h : Calls) (c : Configuration) : Prop where
  none : ∀ i, outstanding p c i = 0
  unconfirmed : ∀ now, confirmed p now h = 0

/-- The live units and those still to be added fit under the limit. -/
def Within (p limit : ℕ) (c : Configuration) : Prop :=
  ∀ others : Finset ℕ, c.shared.liveCount p + ∑ i ∈ others, outstanding p c i ≤ limit

/-- As long as no count has admitted a call there is nothing of the product, and from then on
the units keep under what is the cap and what all other processes may add. -/
structure Capped (p : ℕ) (stock : ℤ) (most units : ℕ) (h : Calls) (c : Configuration) : Prop where
  orderly : ∀ i j q, c.pool i = some (j, q) → Orderly p stock (Leaves stock units) q
  few : ∀ others : Finset ℕ, (∀ i ∈ others, c.pool i ≠ none) → others.card ≤ most
  small : ∀ i, outstanding p c i ≤ units
  room : Idle p h c ∨ Within p ((cap stock).toNat + (most - 1) * units) c

section Steps

variable {p most units limit i : ℕ} {stock : ℤ} {h h' : Calls} {c c' : Configuration} {s' : State}
  {j : OrderCall} {v : Option (OrderCall × Shopping (CreateOrderInfo ⊕ String))}

theorem Idle.move (hidle : Idle p h c) (hv : (v.map (fun e => pending p e.2)).getD 0 = 0)
    (hcalls : ∀ now, confirmed p now h' = 0) :
    Idle p (h ++ h') ⟨s', Function.update c.pool i v⟩ where
  none i' := by
    rw [outstanding_update, hv]
    by_cases hi' : i' = i
    · rw [hi', Function.update_self]
    · rw [Function.update_of_ne hi', hidle.none]
  unconfirmed now := by rw [confirmed_append, hidle.unconfirmed, hcalls]

theorem Within.move (hroom : ∀ others : Finset ℕ, i ∉ others → s'.liveCount p +
      ((v.map (fun e => pending p e.2)).getD 0 + ∑ i' ∈ others, outstanding p c i') ≤ limit) :
    Within p limit ⟨s', Function.update c.pool i v⟩ := by
  intro others
  rw [outstanding_update]
  exact budget_insert hroom others

theorem Within.apart (hwithin : Within p limit c) (others : Finset ℕ) (hout : i ∉ others) :
    c.shared.liveCount p + (outstanding p c i + ∑ i' ∈ others, outstanding p c i') ≤ limit := by
  have hall := hwithin (insert i others)
  rwa [Finset.sum_insert hout] at hall

theorem Capped.others (hc : Capped p stock most units h c) (hi : c.pool i ≠ none)
    (others : Finset ℕ) (hout : i ∉ others) :
    ∑ i' ∈ others, outstanding p c i' ≤ (most - 1) * units := by
  let running := others.filter (fun i' => c.pool i' ≠ none)
  have hsum : ∑ i' ∈ running, outstanding p c i' = ∑ i' ∈ others, outstanding p c i' :=
    Finset.sum_filter_of_ne (fun i' _ (hne : outstanding p c i' ≠ 0) (hnone : c.pool i' = none) =>
      hne (by simp [outstanding, hnone]))
  have hmem : i ∉ running := fun hm => hout (Finset.mem_filter.mp hm).1
  have hcard : running.card + 1 ≤ most := by
    rw [← Finset.card_insert_of_notMem hmem]
    refine hc.few _ (fun i' hi' => ?_)
    obtain rfl | hi' := Finset.mem_insert.mp hi'
    · exact hi
    · exact (Finset.mem_filter.mp hi').2
  calc ∑ i' ∈ others, outstanding p c i' ≤ running.card * units := by
        rw [← hsum, ← smul_eq_mul]
        exact Finset.sum_le_card_nsmul _ _ _ (fun i' _ => hc.small i')
    _ ≤ (most - 1) * units := Nat.mul_le_mul_right _ (by omega)

theorem Capped.move (hc : Capped p stock most units h c)
    (horderly : ∀ j q, v = some (j, q) → Orderly p stock (Leaves stock units) q)
    (hfew : ∀ others : Finset ℕ, (∀ i' ∈ others, Function.update c.pool i v i' ≠ none) →
      others.card ≤ most)
    (hsmall : (v.map (fun e => pending p e.2)).getD 0 ≤ units)
    (hroom : Idle p (h ++ h') ⟨s', Function.update c.pool i v⟩ ∨
      Within p ((cap stock).toNat + (most - 1) * units) ⟨s', Function.update c.pool i v⟩) :
    Capped p stock most units (h ++ h') ⟨s', Function.update c.pool i v⟩ where
  orderly i' j q hq := by
    obtain ⟨_, hv⟩ | ⟨_, hq⟩ := pool_update hq
    · exact horderly j q hv
    · exact hc.orderly i' j q hq
  few := hfew
  small i' := by
    rw [outstanding_update]
    by_cases hi' : i' = i
    · subst hi'
      rwa [Function.update_self]
    · rw [Function.update_of_ne hi']
      exact hc.small i'
  room := hroom

theorem Capped.fewer (hc : Capped p stock most units h c) (hi : v ≠ none → c.pool i ≠ none)
    (others : Finset ℕ) (hothers : ∀ i' ∈ others, Function.update c.pool i v i' ≠ none) :
    others.card ≤ most := by
  refine hc.few others (fun i' hi' => ?_)
  have hrunning := hothers i' hi'
  by_cases he : i' = i
  · rw [he, Function.update_self] at hrunning
    exact he ▸ hi hrunning
  · rwa [Function.update_of_ne he] at hrunning

theorem Capped.reset (hc : Capped p stock most units h c)
    (horderly : ∀ j q, v = some (j, q) → Orderly p stock (Leaves stock units) q)
    (hfew : ∀ others : Finset ℕ, (∀ i' ∈ others, Function.update c.pool i v i' ≠ none) →
      others.card ≤ most) (hv : (v.map (fun e => pending p e.2)).getD 0 = 0) :
    Capped p stock most units h ⟨c.shared, Function.update c.pool i v⟩ := by
  have hroom : Idle p (h ++ []) ⟨c.shared, Function.update c.pool i v⟩ ∨
      Within p ((cap stock).toNat + (most - 1) * units) ⟨c.shared, Function.update c.pool i v⟩ :=
    hc.room.imp (fun hidle => hidle.move hv (fun _ => rfl))
      (fun hwithin => Within.move (fun others hout => by
        have happart := hwithin.apart others hout
        omega))
  simpa using hc.move horderly hfew (by omega) hroom

theorem Crowd.stocked {q : Request} {r : q.Reply} (hok : Crowd p stock most units c (.call i q r)) :
    Stocked p stock q r := by
  cases q with
  | findUniqueOrThrowProductStock p' =>
    cases r with
    | none => trivial
    | some n => exact hok
  | _ => trivial

theorem confirmed_le (p now : ℕ) (q : Request) (r : q.Reply) :
    confirmed p now [⟨q, r⟩] ≤ additions p q := by
  cases q with
  | redis d =>
    cases d with
    | zadd key score m =>
      by_cases hkey : key = reservationKey p
      · simp only [additions, if_pos hkey]
        exact List.countP_le_length.trans le_rfl
      · simp [confirmed, additionOf, Addition.counts, additions, hkey]
    | _ => exact Nat.zero_le _
  | _ => exact Nat.zero_le _

/-- A call takes room only if it adds a unit or its count lets the process add units. -/
theorem Capped.call {q : Request} {r : q.Reply} {k : q.Reply → Shopping (CreateOrderInfo ⊕ String)}
    (hc : Capped p stock most units h c) (hi : c.pool i = some (j, .perform q k))
    (hexec : State.exec q c.shared r s') (hok : Crowd p stock most units c (.call i q r)) :
    Capped p stock most units (h ++ [⟨q, r⟩]) ⟨s', Function.update c.pool i (some (j, k r))⟩ := by
  obtain ⟨hrule, horderly⟩ := hc.orderly i j _ hi r hok.stocked
  have hrunning : c.pool i ≠ none := by simp [hi]
  have hself : outstanding p c i = pending p (.perform q k) := by simp [outstanding, hi]
  have hbefore := hc.small i
  have hadds := exec_liveCount (p := p) hexec
  -- what was to be added pays for what is added and what is left
  have hspends : pending p (k r) + additions p q ≤ outstanding p c i →
      Capped p stock most units (h ++ [⟨q, r⟩]) ⟨s', Function.update c.pool i (some (j, k r))⟩ := by
    intro hle
    refine hc.move ?_ (hc.fewer (fun _ => hrunning)) ?_ (hc.room.imp (fun hidle => ?_)
      (fun hwithin => Within.move (fun others hout => ?_)))
    · rintro _ _ ⟨⟩
      exact horderly
    · exact (Nat.le_of_add_right_le hle).trans hbefore
    · have hnone := hidle.none i
      refine hidle.move ?_ (fun now => ?_)
      · simp only [Option.map_some, Option.getD_some]
        omega
      · have hconfirmed := confirmed_le p now q r
        omega
    · have happart := hwithin.apart others hout
      simp only [Option.map_some, Option.getD_some]
      omega
  by_cases hq : ∀ key min max, q ≠ .redis (.zcount key min max)
  · exact hspends (hself ▸ hrule.spends hq)
  · push Not at hq
    obtain ⟨key, min, max, rfl⟩ := hq
    have hsame : additions p (.redis (.zcount key min max)) = 0 := rfl
    cases r with
    | none => exact hspends (hself ▸ hrule)
    | some n =>
      obtain hle | ⟨rfl, rfl, rfl, hunits, hcap⟩ := hrule
      · exact hspends (hself ▸ hle)
      · have hcount := exec_zcount hexec
        refine hc.move ?_ (hc.fewer (fun _ => hrunning)) hunits (.inr (Within.move
          (fun others hout => ?_)))
        · rintro _ _ ⟨⟩
          exact horderly
        · have hothers := hc.others hrunning others hout
          simp only [Option.map_some, Option.getD_some]
          omega

theorem Capped.step {l : Action} {w : List (OrderCall × Answered)}
    (hc : Capped p stock most units (w.map Prod.snd) c) (hs : Step orders c l c')
    (hok : Crowd p stock most units c l) :
    Capped p stock most units ((w ++ entry c l).map Prod.snd) c' := by
  cases hs with
  | @env s' henv =>
    obtain ⟨hclock, hr, _⟩ := henv
    have hle : s'.liveCount p ≤ c.shared.liveCount p := by
      rw [State.liveCount, hr]
      exact ReservationCap.liveCount_le _ (second_mono hclock)
    simp only [entry, List.append_nil]
    exact ⟨hc.orderly, hc.few, hc.small, hc.room.imp (fun hidle => ⟨hidle.none, hidle.unconfirmed⟩)
      (fun hwithin others => (Nat.add_le_add_right hle _).trans (hwithin others))⟩
  | @start i j _ hi hs =>
    obtain ⟨_, rfl⟩ := hs
    obtain ⟨hunits, hfew⟩ := hok
    have hcounted : Counted p stock (Leaves stock units) (orders.program j) := counted_order hunits
    simp only [entry, List.append_nil]
    refine hc.reset ?_ (fun others hothers => ?_) hcounted.pending
    · rintro _ _ ⟨⟩
      exact hcounted.orderly
    · have hlt := hfew (others.erase i) (fun i' hi' => ?_) (Finset.notMem_erase i others)
      · have hcard := Finset.pred_card_le_card_erase (s := others) (a := i)
        omega
      · obtain ⟨hne, hi'⟩ := Finset.mem_erase.mp hi'
        simpa [Function.update_of_ne hne] using hothers i' hi'
  | @call i j q k r s' hi hexec =>
    have hentry : entry c (.call i q r) = [(j, ⟨q, r⟩)] := by simp [entry, hi]
    rw [hentry, List.map_append]
    exact hc.call hi hexec hok
  | @stop i =>
    simp only [entry, List.append_nil]
    exact hc.reset (by rintro _ _ ⟨⟩) (hc.fewer (fun hne => absurd rfl hne)) rfl

end Steps

section Runs

variable {p most units : ℕ} {stock : ℤ} {s : State}
  {r : Record ℕ OrderCall Request Request.Reply State} {c : Configuration}

theorem no_others {others : Finset ℕ}
    (h : ∀ i ∈ others, (Pool.quiet s : Configuration).pool i ≠ none) : others = ∅ :=
  Finset.eq_empty_of_forall_notMem (fun i hi => h i hi rfl)

theorem Capped.quiet : Capped p stock most units [] (Pool.quiet s) where
  orderly _ _ _ h := nomatch h
  few others hothers := by simp [no_others hothers]
  small _ := Nat.zero_le _
  room := .inl ⟨fun _ => rfl, fun _ => rfl⟩

theorem Capped.recorded (h : Recorded orders (Crowd p stock most units) s r c) :
    Capped p stock most units (r.calls.map Prod.snd) c := by
  induction h with
  | quiet => exact .quiet
  | step _ hstep hok ih => exact ih.step hstep hok

end Runs

end EcommerceService.OrderCap
