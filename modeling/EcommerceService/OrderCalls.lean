import Mathlib.Algebra.BigOperators.Group.List.Basic
import EcommerceService.Checkout
import EcommerceService.Lib.Histories

namespace EcommerceService.OrderCalls

open EcommerceService.Effects EcommerceService.Errors EcommerceService.Models
open EcommerceService.SortedSets EcommerceService.Cache EcommerceService.Storefront
open EcommerceService.Storefront.ProductStockCacheStore EcommerceService.Pool
open EcommerceService.Histories EcommerceService.Shop EcommerceService.Reservations

/-- A call of `OrderFacade.order`, and the second at which it is made. -/
structure OrderCall where
  second : ℕ
  userId : ℕ
  items : List CreateOrderItemDto
deriving DecidableEq, Repr

/-- Time passes, and all but the reservations may change: the saga goes on, products change,
and texts are cached and dropped. -/
def elsewhere (s t : State) : Prop :=
  s.clock ≤ t.clock ∧ t.reservations = s.reservations ∧ s.issued ⊆ t.issued

def orders : System ℕ OrderCall Request Request.Reply Error (CreateOrderInfo ⊕ String) State where
  exec := State.exec
  program := fun j => OrderFacade.order j.userId j.items
  start := fun _ j s t => j.second = s.second ∧ t = s
  env := elsewhere

abbrev Configuration : Type 1 :=
  Config ℕ OrderCall Request Request.Reply Error (CreateOrderInfo ⊕ String) State

abbrev Answered : Type 1 := Σ q : Request, q.Reply

abbrev Calls : Type 1 := History Request Request.Reply

/-- A command for one unit, and whether it was answered. -/
structure Addition where
  key : String
  score : ℕ
  member : String
  answered : Bool
deriving DecidableEq, Repr

def additionOf : Answered → Option Addition
  | ⟨.redis (.zadd key score m), r⟩ => some ⟨key, score, m, r.isSome⟩
  | _ => none

def Addition.counts (p now : ℕ) (a : Addition) : Bool := a.key = reservationKey p && live now a.score

def sent (p now : ℕ) (h : Calls) : ℕ := (h.filterMap additionOf).countP (Addition.counts p now)

def confirmed (p now : ℕ) (h : Calls) : ℕ :=
  (h.filterMap additionOf).countP (fun a => a.answered && a.counts p now)

def members (h : Calls) : List String := (h.filterMap additionOf).map (·.member)

def idOf : Answered → Option Uuid
  | ⟨.randomUUID, id⟩ => some id
  | _ => none

def made (h : Calls) : List Uuid := h.filterMap idOf

def places : Answered → Bool
  | ⟨.backend _, _⟩ => true
  | _ => false

def requested (p : ℕ) (items : List CreateOrderItemDto) : ℕ :=
  ((items.filter (fun item => item.productId = p)).map (fun item => item.quantity.toNat)).sum

section Programs

variable {j : OrderCall} {h : Calls} {p now : ℕ}

/-- The clock has not gone back since the call began, and ids are new. -/
def genuine (j : OrderCall) : (q : Request) → Calls → q.Reply → Prop
  | .dateNow, _, ms => j.second ≤ ms / 1000
  | .randomUUID, h, id => id ∉ made h
  | _, _, _ => True

/-- A unit is added once and under an id that was made for it, only what is over by the clock
is purged, and the transaction comes once, when all the units of the items are confirmed. -/
def may (j : OrderCall) : Request → Calls → Prop
  | .redis (.zadd key _ m), h =>
      (∃ p, key = reservationKey p) ∧ (∃ id seq, id ∈ made h ∧ m = member j.userId id seq) ∧
        m ∉ members h
  | .redis (.zremrangebyscore key min max), h => (∃ p, key = reservationKey p) ∧ min = .negInf ∧
      ∃ ms, ⟨.dateNow, ms⟩ ∈ h ∧ max = .score (ms / 1000)
  | .backend _, h => h.any places = false ∧
      ∀ p now, now < j.second + ttl → requested p j.items ≤ confirmed p now h
  | _, _ => True

/-- The units of the items are confirmed, the units that were added are of ids that were made,
and the transaction has not come. -/
structure Stocked (j : OrderCall) (items : List CreateOrderItemDto) (h : Calls) : Prop where
  before : h.any places = false
  named : ∀ m ∈ members h, ∃ id seq, id ∈ made h ∧ m = member j.userId id seq
  units : ∀ p now, now < j.second + ttl → requested p items ≤ confirmed p now h

@[simp] theorem confirmed_append (h h' : Calls) :
    confirmed p now (h ++ h') = confirmed p now h + confirmed p now h' := by
  simp [confirmed, List.countP_append]

@[simp] theorem sent_append (h h' : Calls) :
    sent p now (h ++ h') = sent p now h + sent p now h' := by
  simp [sent, List.countP_append]

@[simp] theorem members_append (h h' : Calls) : members (h ++ h') = members h ++ members h' := by
  simp [members]

@[simp] theorem made_append (h h' : Calls) : made (h ++ h') = made h ++ made h' := by
  simp [made]

@[simp] theorem requested_append (items items' : List CreateOrderItemDto) :
    requested p (items ++ items') = requested p items + requested p items' := by
  simp [requested]

theorem requested_single (item : CreateOrderItemDto) :
    requested p [item] = if item.productId = p then item.quantity.toNat else 0 := by
  by_cases hp : item.productId = p <;> simp [requested, hp]

def Plain : Request → Prop
  | .redis (.zadd _ _ _) => False
  | .redis (.zremrangebyscore _ _ _) => False
  | .backend _ => False
  | _ => True

theorem Plain.may {q : Request} (hq : Plain q) : may j q h := by
  match q with
  | .redis (.zadd _ _ _) => exact hq.elim
  | .redis (.zremrangebyscore _ _ _) => exact hq.elim
  | .redis (.get _) => trivial
  | .redis (.set _ _ _) => trivial
  | .redis (.zcount _ _ _) => trivial
  | .backend _ => exact hq.elim
  | .dateNow => trivial
  | .randomUUID => trivial
  | .findUniqueOrThrowProduct _ => trivial
  | .updateProduct _ _ => trivial
  | .findUniqueOrThrowProductStock _ => trivial

variable {items : List CreateOrderItemDto}

theorem Stocked.longer (hh : Stocked j items h) {q : Request} {r : q.Reply}
    (hq : places ⟨q, r⟩ = false)
    (hm : ∀ m ∈ members [⟨q, r⟩], ∃ id seq, id ∈ made h ∧ m = member j.userId id seq) :
    Stocked j items (h ++ [⟨q, r⟩]) where
  before := by simp [hh.before, hq]
  named m hmem := by
    rw [members_append, List.mem_append] at hmem
    obtain ⟨id, seq, hid, rfl⟩ := hmem.elim (hh.named m) (hm m)
    exact ⟨id, seq, by simp [hid], rfl⟩
  units p now hnow := by
    rw [confirmed_append]
    exact (hh.units p now hnow).trans (Nat.le_add_right _ _)

theorem Stocked.after (hh : Stocked j items h) (q : Request) (r : q.Reply)
    (hq : places ⟨q, r⟩ = false := by rfl) (hm : members [⟨q, r⟩] = [] := by rfl) :
    Stocked j items (h ++ [⟨q, r⟩]) :=
  hh.longer hq (fun m hmem => by simp [hm] at hmem)

theorem obeys_plain {A : Type} {Q : Error → Prop} {q : Shopping A}
    (hq : Effect.Confined Effect.anyAnswer Plain Q q) (hh : Stocked j items h) :
    Obeys (genuine j) (may j) (fun _ h' => Stocked j items h') q h := by
  refine .of_confined hq hh (fun c _ hc hF => ⟨hc.may, fun r => ?_⟩)
  match c with
  | .redis (.zadd _ _ _) => exact hc.elim
  | .redis (.zremrangebyscore _ _ _) => exact hc.elim
  | .redis (.get _) => exact hF.after _ r
  | .redis (.set _ _ _) => exact hF.after _ r
  | .redis (.zcount _ _ _) => exact hF.after _ r
  | .backend _ => exact hc.elim
  | .dateNow => exact hF.after _ r
  | .randomUUID => exact hF.after _ r
  | .findUniqueOrThrowProduct _ => exact hF.after _ r
  | .updateProduct _ _ => exact hF.after _ r
  | .findUniqueOrThrowProductStock _ => exact hF.after _ r

theorem confirmed_unit (p p' n : ℕ) (m : String) {score : ℕ} (hscore : now < score) :
    confirmed p now [⟨.redis (.zadd (reservationKey p') score m), some n⟩] =
      if p' = p then 1 else 0 := by
  by_cases hp : p' = p <;> simp [confirmed, additionOf, Addition.counts, live, hp, hscore]

/-- The units of a reservation are added under its id one after the other, and when all
commands are answered they are all confirmed. -/
theorem obeys_addUnits {p' score : ℕ} {id : Uuid} {seqs : List ℕ} (hh : Stocked j items h)
    (hid : id ∈ made h) (hn : seqs.Nodup)
    (hnew : ∀ seq ∈ seqs, member j.userId id seq ∉ members h) (hscore : j.second + ttl ≤ score) :
    Obeys (genuine j) (may j) (fun x h' => ∀ as, x = .success as → Stocked j items h' ∧
        ∀ p now, now < j.second + ttl →
          confirmed p now h + (if p' = p then seqs.length else 0) ≤ confirmed p now h')
      (Effect.all (seqs.map (addUnit p' j.userId score id))) h := by
  induction seqs generalizing h with
  | nil => exact fun as _ => ⟨hh, fun p now _ => by simp⟩
  | cons seq seqs ih =>
    obtain ⟨hseq, hn⟩ := List.nodup_cons.mp hn
    refine Obeys.flatMap ⟨⟨⟨p', rfl⟩, ⟨id, seq, hid, rfl⟩, hnew seq List.mem_cons_self⟩, fun r _ => ?_⟩
    cases r with
    | none => exact fun as has => nomatch has
    | some n =>
      refine Obeys.flatMap (Obeys.mono (ih (hh.longer rfl ?_) ?_ hn ?_) (fun x h' _ hx => ?_))
      · intro m hm
        exact ⟨id, seq, hid, List.mem_singleton.mp hm⟩
      · rw [made_append]
        exact List.mem_append_left _ hid
      · intro seq' hseq'
        rw [members_append, List.mem_append, not_or]
        refine ⟨hnew seq' (List.mem_cons_of_mem _ hseq'), fun hm => hseq ?_⟩
        rw [← (member_inj (List.mem_singleton.mp hm)).2.2]
        exact hseq'
      · cases x with
        | failure e => exact fun as has => nomatch has
        | defect => exact fun as has => nomatch has
        | success as =>
          intro _ _
          obtain ⟨hstocked, hunits⟩ := hx as rfl
          refine ⟨hstocked, fun p now hnow => ?_⟩
          have hone := confirmed_unit p p' n (member j.userId id seq) (show now < score by omega)
          calc confirmed p now h + (if p' = p then (seq :: seqs).length else 0)
              = confirmed p now (h ++ [⟨.redis (.zadd (reservationKey p') score
                  (member j.userId id seq)), some n⟩]) + (if p' = p then seqs.length else 0) := by
                rw [confirmed_append, hone, List.length_cons]
                split <;> omega
            _ ≤ confirmed p now h' := hunits p now hnow

theorem obeys_reserve {item : CreateOrderItemDto} (hh : Stocked j items h) :
    Obeys (genuine j) (may j) (fun x h' => ∀ a, x = .success a → Stocked j (items ++ [item]) h')
      (ProductService.reserve ⟨item.productId, j.userId, item.quantity⟩) h := by
  refine Obeys.flatMap ⟨trivial, fun ms hms => ⟨trivial, fun id hid => ?_⟩⟩
  have hclock := hh.after .dateNow ms
  have hready := hclock.after .randomUUID id
  refine Obeys.mono (obeys_addUnits hready ?_ List.nodup_range' ?_ ?_) (fun x h' _ hx => ?_)
  · simp [made, idOf]
  · intro seq _ hm
    rw [members_append, List.mem_append] at hm
    obtain ⟨id', seq', hid', heq⟩ := hclock.named _ (hm.resolve_right (List.not_mem_nil))
    exact hid ((member_inj heq).2.1 ▸ hid')
  · exact Nat.add_le_add_right hms _
  · cases x with
    | failure e => exact fun a ha => nomatch ha
    | defect => exact fun a ha => nomatch ha
    | success as =>
      intro _ _
      obtain ⟨hstocked, hunits⟩ := hx as rfl
      refine ⟨hstocked.before, hstocked.named, fun p now hnow => ?_⟩
      rw [requested_append, requested_single]
      refine (Nat.add_le_add_right (hready.units p now hnow) _).trans ?_
      simpa using hunits p now hnow

theorem obeys_reserveStockAt {item : CreateOrderItemDto}
    (hnow : ∃ ms, (⟨.dateNow, ms⟩ : Answered) ∈ h ∧ now = ms / 1000) (hh : Stocked j items h) :
    Obeys (genuine j) (may j) (fun x h' => ∀ a, x = .success a → Stocked j (items ++ [item]) h')
      (ProductService.reserveStockAt now ⟨item.productId, j.userId, item.quantity⟩) h := by
  have hget : Effect.Confined Effect.anyAnswer Plain (fun _ => True)
      (ProductStockRepository.getById item.productId) := confined_getById trivial trivial
  refine Obeys.flatMap (Obeys.mono (obeys_plain hget hh) (fun x h₁ hh₁ hx => ?_))
  cases x with
  | failure e => rintro _ ⟨⟩
  | defect => rintro _ ⟨⟩
  | success stock =>
    refine Obeys.flatMap (Obeys.flatMap ⟨⟨⟨_, rfl⟩, rfl, ?_⟩, fun r _ => ?_⟩)
    · obtain ⟨ms, hms, rfl⟩ := hnow
      exact ⟨ms, hh₁.subset hms, rfl⟩
    cases r with
    | none => rintro _ ⟨⟩
    | some removed =>
      refine ⟨trivial, fun r _ => ?_⟩
      cases r with
      | none => rintro _ ⟨⟩
      | some reserved =>
        have hcounted := (hx.after (.redis (purge item.productId now)) (some removed)).after
          (.redis (.zcount (reservationKey item.productId) .negInf .posInf)) (some reserved)
        change Obeys _ _ _ (ProductService.reserveIfAvailable _ _) _
        rw [ProductService.reserveIfAvailable]
        split
        · exact obeys_reserve hcounted
        · rintro _ ⟨⟩

theorem obeys_reserveAll {es : List (ℕ × CreateOrderItemDto)}
    (hnow : ∀ e ∈ es, ∃ ms, (⟨.dateNow, ms⟩ : Answered) ∈ h ∧ e.1 = ms / 1000)
    (hh : Stocked j items h) : Obeys (genuine j) (may j)
      (fun x h' => ∀ as, x = .success as → Stocked j (items ++ es.map Prod.snd) h')
      (Effect.all (es.map (fun e =>
        ProductService.reserveStockAt e.1 ⟨e.2.productId, j.userId, e.2.quantity⟩))) h := by
  induction es generalizing h items with
  | nil => exact fun as _ => by simpa using hh
  | cons e es ih =>
    obtain ⟨hfirst, hrest⟩ := List.forall_mem_cons.mp hnow
    refine Obeys.flatMap (Obeys.mono (obeys_reserveStockAt hfirst hh) (fun x h₁ hh₁ hx => ?_))
    cases x with
    | failure e => exact fun as has => nomatch has
    | defect => exact fun as has => nomatch has
    | success a =>
      have hlater : ∀ e ∈ es, ∃ ms, (⟨.dateNow, ms⟩ : Answered) ∈ h₁ ∧ e.1 = ms / 1000 := by
        intro e he
        obtain ⟨ms, hms, heq⟩ := hrest e he
        exact ⟨ms, hh₁.subset hms, heq⟩
      refine Obeys.flatMap (Obeys.mono (ih hlater (hx a rfl)) (fun y h₂ _ hy => ?_))
      cases y with
      | failure e => exact fun as has => nomatch has
      | defect => exact fun as has => nomatch has
      | success as =>
        intro _ _
        simpa using hy as rfl

theorem obeys_seconds (es : List CreateOrderItemDto) (hh : Stocked j items h) :
    Obeys (genuine j) (may j) (fun x h' => ∀ nows, x = .success nows → Stocked j items h' ∧
        nows.length = es.length ∧
          ∀ now ∈ nows, ∃ ms, (⟨.dateNow, ms⟩ : Answered) ∈ h' ∧ now = ms / 1000)
      (Effect.all (es.map (fun _ => second))) h := by
  induction es generalizing h with
  | nil =>
    rintro _ ⟨⟩
    exact ⟨hh, rfl, by simp⟩
  | cons e es ih =>
    refine Obeys.flatMap ⟨trivial, fun ms _ => ?_⟩
    refine Obeys.flatMap (Obeys.mono (ih (hh.after .dateNow ms)) (fun x h' hh' hx => ?_))
    cases x with
    | failure e => exact fun nows hnows => nomatch hnows
    | defect => exact fun nows hnows => nomatch hnows
    | success nows =>
      rintro _ ⟨⟩
      obtain ⟨hstocked, hlength, hnows⟩ := hx nows rfl
      refine ⟨hstocked, congrArg (· + 1) hlength, List.forall_mem_cons.mpr ⟨?_, hnows⟩⟩
      exact ⟨ms, hh'.subset (List.mem_append_right _ List.mem_cons_self), rfl⟩

theorem obeys_reserveStock (j : OrderCall) : Obeys (genuine j) (may j)
    (fun x h' => ∀ as, x = .success as → Stocked j j.items h')
    (OrderFacade.reserveStock j.userId j.items) [] := by
  have hopen : Stocked j [] [] := ⟨rfl, fun _ => nofun, fun p now _ => Nat.zero_le _⟩
  refine Obeys.flatMap (Obeys.mono (obeys_seconds j.items hopen) (fun x h' _ hx => ?_))
  cases x with
  | failure e => exact fun as has => nomatch has
  | defect => exact fun as has => nomatch has
  | success nows =>
    obtain ⟨hstocked, hlength, hnows⟩ := hx nows rfl
    have hall := obeys_reserveAll
      (fun e (he : e ∈ nows.zip j.items) => hnows e.1 (List.of_mem_zip he).1) hstocked
    rwa [List.nil_append, List.map_snd_zip (Nat.le_of_eq hlength.symm)] at hall

/-- `OrderFacade.order` obeys: it comes to its transaction only with all its units confirmed. -/
theorem obeys_order (j : OrderCall) :
    Obeys (genuine j) (may j) (fun _ _ => True) (orders.program j) [] := by
  have hplace : ∀ commands h, Stocked j j.items h → Obeys (genuine j) (may j) (fun _ _ => True)
      (OrderFacade.createOrder j.userId commands) h := by
    intro commands h hh
    rw [Checkout.createOrder_eq]
    refine ⟨⟨hh.before, hh.units⟩, fun r _ => ?_⟩
    cases r with
    | resolved info => trivial
    | rejected e => trivial
  have hlook : ∀ h, Stocked j j.items h → Obeys (genuine j) (may j) (fun _ h' => Stocked j j.items h')
      (OrderFacade.createOrderItemCommands j.items) h := by
    refine fun h => obeys_plain (Q := fun _ => True) ?_
    exact OrderFacade.confined_createOrderItemCommands (fun _ =>
      ProductService.confined_getBy (fun _ => trivial) (fun _ => trivial) trivial trivial trivial)
  have hbody : Obeys (genuine j) (may j) (fun _ _ => True)
      (((OrderFacade.reserveStock j.userId j.items).flatMap (fun _ =>
        OrderFacade.createOrderItemCommands j.items)).flatMap (OrderFacade.createOrder j.userId)) [] := by
    refine Obeys.flatMap (Obeys.flatMap (Obeys.mono (obeys_reserveStock j) (fun x h _ hx => ?_)))
    cases x with
    | failure e => trivial
    | defect => trivial
    | success as =>
      refine Obeys.mono (hlook h (hx as rfl)) (fun y h' _ hy => ?_)
      cases y with
      | failure e => trivial
      | defect => trivial
      | success commands => exact hplace commands h' hy
  refine Obeys.catchAll (Obeys.flatMap (Obeys.mono hbody (fun x h _ _ => ?_)))
  cases x with
  | success info => trivial
  | defect => trivial
  | failure e =>
    change Obeys _ _ _ (if e.isBadRequest then _ else _) _
    split <;> trivial

end Programs

end EcommerceService.OrderCalls
