import EcommerceService.Reservations

namespace EcommerceService.Leftovers

open EcommerceService.Effects EcommerceService.Errors EcommerceService.Models
open EcommerceService.Database EcommerceService.Repositories EcommerceService.Backend
open EcommerceService.Services EcommerceService.Saga EcommerceService.SortedSets
open EcommerceService.Cache EcommerceService.Storefront EcommerceService.Shop
open EcommerceService.Reservations

/-- Units of an item that a call from `s` to `t` has reserved, from its first one on. -/
structure UnitsOf (userId : ℕ) (s t : State) (item : CreateOrderItemDto) (units : List ReservedUnit) :
    Prop where
  made : ∃ id score done, id ∉ s.issued ∧ s.second + ProductStockCacheStore.ttl ≤ score ∧
    score ≤ t.second + ProductStockCacheStore.ttl ∧ done <+: List.range' 1 item.quantity.toNat ∧
    units = unitsOf item.productId userId score id done

inductive Reserved (userId : ℕ) (s t : State) : List CreateOrderItemDto → List ReservedUnit → Prop
  | nil : Reserved userId s t [] []
  | cons {item : CreateOrderItemDto} {items : List CreateOrderItemDto} {first rest : List ReservedUnit} :
      UnitsOf userId s t item first → first.length = item.quantity.toNat →
      Reserved userId s t items rest → Reserved userId s t (item :: items) (first ++ rest)

def Begun (userId : ℕ) (s t : State) (items : List CreateOrderItemDto) (units : List ReservedUnit) :
    Prop :=
  units = [] ∨ ∃ item rest, items = item :: rest ∧ UnitsOf userId s t item units

/-- What is reserved of the items: the units of those before some point, and at most some of
the item there. -/
structure Leaves (userId : ℕ) (s t : State) (before rest : List CreateOrderItemDto)
    (units part : List ReservedUnit) : Prop where
  reserved : Reserved userId s t before units
  begun : Begun userId s t rest part

section Windows

variable {userId : ℕ} {s s' t t' : State} {item : CreateOrderItemDto}
  {items : List CreateOrderItemDto} {units moved : List ReservedUnit}

theorem UnitsOf.widen (h : UnitsOf userId s' t item units) (hs : Adds moved s s') :
    UnitsOf userId s t item units := by
  obtain ⟨id, score, done, hid, hmin, hmax, hdone, hunits⟩ := h.made
  refine ⟨id, score, done, fun hm => hid (hs.issued hm), ?_, hmax, hdone, hunits⟩
  exact (Nat.add_le_add_right (second_mono hs.clock) _).trans hmin

theorem UnitsOf.extend (h : UnitsOf userId s t item units) (ht : Adds moved t t') :
    UnitsOf userId s t' item units := by
  obtain ⟨id, score, done, hid, hmin, hmax, hdone, hunits⟩ := h.made
  refine ⟨id, score, done, hid, hmin, ?_, hdone, hunits⟩
  exact hmax.trans (Nat.add_le_add_right (second_mono ht.clock) _)

theorem Reserved.widen (h : Reserved userId s' t items units) (hs : Adds moved s s') :
    Reserved userId s t items units := by
  induction h with
  | nil => exact .nil
  | cons hfirst hlen _ ih => exact .cons (hfirst.widen hs) hlen ih

theorem Reserved.extend (h : Reserved userId s t items units) (ht : Adds moved t t') :
    Reserved userId s t' items units := by
  induction h with
  | nil => exact .nil
  | cons hfirst hlen _ ih => exact .cons (hfirst.extend ht) hlen ih

variable {before rest : List CreateOrderItemDto} {part : List ReservedUnit}

theorem Leaves.widen (h : Leaves userId s' t before rest units part) (hs : Adds moved s s') :
    Leaves userId s t before rest units part where
  reserved := h.reserved.widen hs
  begun := h.begun.imp_right (fun ⟨item, more, hrest, hu⟩ => ⟨item, more, hrest, hu.widen hs⟩)

theorem Leaves.extend (h : Leaves userId s t before rest units part) (ht : Adds moved t t') :
    Leaves userId s t' before rest units part where
  reserved := h.reserved.extend ht
  begun := h.begun.imp_right (fun ⟨item, more, hrest, hu⟩ => ⟨item, more, hrest, hu.extend ht⟩)

end Windows

section Reserving

variable {userId p now : ℕ} {s t : State} {command : ReserveStockCommand}

theorem runs_getById {x : Exit Error ProductStockModel}
    (h : Effect.Runs State.exec (ProductStockRepository.getById p) s x t) :
    ∃ ms, t = s.wait ms ∧ ((∃ stock, x = .success ⟨p, stock⟩) ∨
      x = .failure (.appNotFound ErrorCodes.productNotFound)) := by
  obtain ⟨y, u, hy, hx⟩ := Effect.runs_catchAll.mp h
  obtain ⟨r, u', ⟨w, ms, hact, rfl⟩, hr⟩ := Effect.runs_perform.mp hy
  cases r with
  | none =>
    obtain rfl : w = s := hact
    obtain ⟨rfl, rfl⟩ := Effect.runs_fail.mp hr
    obtain ⟨rfl, rfl⟩ := Effect.runs_fail.mp hx
    exact ⟨ms, rfl, .inr rfl⟩
  | some stock =>
    obtain rfl : w = s := hact.2
    obtain ⟨rfl, rfl⟩ := Effect.runs_succeed.mp hr
    obtain ⟨rfl, rfl⟩ := Effect.runs_succeed.mp hx
    exact ⟨ms, rfl, .inl ⟨stock, rfl⟩⟩

def Aside : Request → Prop
  | .redis (.get _) => True
  | .redis (.set _ _ _) => True
  | .redis _ => False
  | .updateProduct _ _ => False
  | _ => True

def Possible (c : Request) (r : c.Reply) : Prop := ∃ s t, State.exec c s r t

def Polite {A : Type} (P : Request → Prop) (p : Shopping A) : Prop :=
  Effect.Confined Possible P (fun e => e.isBadRequest = false) p

theorem Polite.failure {A : Type} {P : Request → Prop} {program : Shopping A} {e : Error}
    (h : Polite P program) (hr : Effect.Runs State.exec program s (.failure e) t) :
    e.isBadRequest = false :=
  (Effect.Confined.runs (F := fun _ => True) h hr trivial (fun _ s _ t _ hexec => ⟨s, t, hexec⟩)
    (fun _ _ _ _ _ _ _ => trivial)).1 e rfl

/-- What one call of `reserveStock` adds: all units of the item, or none because it is not
admitted, or some because a call fails. -/
structure Attempt (userId : ℕ) (s t : State) (item : CreateOrderItemDto) (x : Exit Error Unit)
    (units : List ReservedUnit) : Prop where
  adds : Adds units s t
  part : units = [] ∨ UnitsOf userId s t item units
  whole : x = .success () → UnitsOf userId s t item units ∧ units.length = item.quantity.toNat
  refused : ∀ e, x = .failure e → e.isBadRequest = true → units = []

theorem Attempt.nothing {item : CreateOrderItemDto} {x : Exit Error Unit} (h : Adds [] s t)
    (hx : x ≠ .success ()) : Attempt userId s t item x [] :=
  ⟨h, .inl rfl, fun hs => absurd hs hx, fun _ _ _ => rfl⟩

theorem runs_reserve {item : CreateOrderItemDto} {x : Exit Error Unit}
    (h : Effect.Runs State.exec
      (ProductService.reserve ⟨item.productId, userId, item.quantity⟩) s x t) (hs : Known s) :
    ∃ units, Attempt userId s t item x units := by
  obtain ⟨y, u, hy, hx⟩ := Effect.runs_flatMap.mp h
  obtain ⟨id, done, hid, hdone, hadds, hall⟩ := runs_reserveStock hy hs
  have hmade : UnitsOf userId s u item (unitsOf item.productId userId
      (s.second + ProductStockCacheStore.ttl) id done) :=
    ⟨id, _, done, hid, le_rfl, Nat.add_le_add_right (second_mono hadds.clock) _, hdone, rfl⟩
  cases y with
  | success as =>
    obtain ⟨rfl, rfl⟩ := Effect.runs_succeed.mp hx
    refine ⟨_, hadds, .inr hmade, fun _ => ⟨hmade, ?_⟩, by rintro e ⟨⟩⟩
    simp [unitsOf, hall as rfl]
  | failure e =>
    obtain ⟨rfl, rfl⟩ := Effect.runs_fail.mp hx
    refine ⟨_, hadds, .inr hmade, by rintro ⟨⟩, ?_⟩
    rintro _ ⟨⟩ hbad
    have hpolite : Polite (fun _ => True)
        (ProductStockCacheStore.reserveStock item.productId userId item.quantity) :=
      ProductStockCacheStore.confined_reserveStock trivial trivial (fun _ _ _ => trivial) rfl
    cases (hpolite.failure hy).symm.trans hbad
  | defect =>
    obtain ⟨rfl, rfl⟩ := Effect.runs_die.mp hx
    exact ⟨_, hadds, .inr hmade, by rintro ⟨⟩, by rintro e ⟨⟩⟩

theorem runs_reserveStockAt {item : CreateOrderItemDto} {x : Exit Error Unit}
    (h : Effect.Runs State.exec
      (ProductService.reserveStockAt now ⟨item.productId, userId, item.quantity⟩) s x t)
    (hs : Known s) (hnow : now ≤ s.second) : ∃ units, Attempt userId s t item x units := by
  have hwaits : ∀ ms, Adds [] s (s.wait ms) :=
    fun ms => .of_same hs rfl (List.Subset.refl _) (Nat.le_add_right _ _)
  obtain ⟨y, u, hy, hx⟩ := Effect.runs_flatMap.mp h
  obtain ⟨ms, rfl, ⟨stock, rfl⟩ | rfl⟩ := runs_getById hy
  · obtain ⟨z, v, hz, hx⟩ := Effect.runs_flatMap.mp hx
    obtain ⟨hcount, hdefect, _⟩ := runs_countReservedStockAt hz (hwaits ms).known
      (hnow.trans (second_mono (hwaits ms).clock))
    have hsv := (hwaits ms).trans hcount
    cases z with
    | defect => exact absurd rfl hdefect
    | failure e =>
      obtain ⟨rfl, rfl⟩ := Effect.runs_fail.mp hx
      exact ⟨[], .nothing hsv (by rintro ⟨⟩)⟩
    | success reserved =>
      simp only [Effect.resume, ProductService.reserveIfAvailable] at hx
      split at hx
      · obtain ⟨units, hattempt⟩ := runs_reserve hx hsv.known
        refine ⟨units, hsv.trans hattempt.adds, hattempt.part.imp_right (·.widen hsv), fun hs => ?_,
          hattempt.refused⟩
        exact (hattempt.whole hs).imp_left (·.widen hsv)
      · obtain ⟨rfl, rfl⟩ := Effect.runs_fail.mp hx
        exact ⟨[], .nothing hsv (by rintro ⟨⟩)⟩
  · obtain ⟨rfl, rfl⟩ := Effect.runs_fail.mp hx
    exact ⟨[], .nothing (hwaits ms) (by rintro ⟨⟩)⟩

end Reserving

section Orders

variable {userId : ℕ} {s t : State}

theorem runs_reserveAll {es : List (ℕ × CreateOrderItemDto)} {x : Exit Error (List Unit)}
    (h : Effect.Runs State.exec (Effect.all (es.map (fun e =>
      ProductService.reserveStockAt e.1 ⟨e.2.productId, userId, e.2.quantity⟩))) s x t)
    (hs : Known s) (hnow : ∀ e ∈ es, e.1 ≤ s.second) :
    ∃ before rest units part, es.map Prod.snd = before ++ rest ∧ Adds (units ++ part) s t ∧
      Leaves userId s t before rest units part ∧
      (∀ as, x = .success as → rest = []) ∧
      (∀ e, x = .failure e → e.isBadRequest = true → rest ≠ [] ∧ part = []) := by
  induction es generalizing s t x with
  | nil =>
    obtain ⟨rfl, rfl⟩ := Effect.runs_succeed.mp h
    exact ⟨[], [], [], [], rfl, .refl hs, ⟨.nil, .inl rfl⟩, fun _ _ => rfl, by rintro e ⟨⟩⟩
  | cons first es ih =>
    obtain ⟨hfirst, hrest⟩ := List.forall_mem_cons.mp hnow
    obtain ⟨y, u, hy, hx⟩ := Effect.runs_flatMap.mp h
    obtain ⟨units, hattempt⟩ := runs_reserveStockAt hy hs hfirst
    have hstop : t = u → (∀ as, x ≠ .success as) →
        (∀ e, x = .failure e → e.isBadRequest = true → units = []) →
        ∃ before rest units part, (first :: es).map Prod.snd = before ++ rest ∧
          Adds (units ++ part) s t ∧ Leaves userId s t before rest units part ∧
          (∀ as, x = .success as → rest = []) ∧
          (∀ e, x = .failure e → e.isBadRequest = true → rest ≠ [] ∧ part = []) := by
      rintro rfl hx hbad
      refine ⟨[], (first :: es).map Prod.snd, [], units, rfl, hattempt.adds, ⟨.nil, ?_⟩,
        fun as has => absurd has (hx as), fun e he hb => ⟨List.cons_ne_nil _ _, hbad e he hb⟩⟩
      exact hattempt.part.imp_right (fun hu => ⟨first.2, _, rfl, hu⟩)
    cases y with
    | failure e =>
      obtain ⟨rfl, rfl⟩ := Effect.runs_fail.mp hx
      refine hstop rfl (by rintro as ⟨⟩) ?_
      rintro _ ⟨⟩
      exact hattempt.refused e rfl
    | defect =>
      obtain ⟨rfl, rfl⟩ := Effect.runs_die.mp hx
      exact hstop rfl (by rintro as ⟨⟩) (by rintro e ⟨⟩)
    | success a =>
      obtain ⟨z, hz, rfl⟩ := Effect.runs_map.mp hx
      have hlater : ∀ e ∈ es, e.1 ≤ u.second :=
        fun e he => (hrest e he).trans (second_mono hattempt.adds.clock)
      obtain ⟨before, rest, units', part, hes, hadds, hleaves, hall, hbad⟩ :=
        ih hz hattempt.adds.known hlater
      obtain ⟨hwhole, hlength⟩ := hattempt.whole rfl
      have hwide := hleaves.widen hattempt.adds
      refine ⟨first.2 :: before, rest, units ++ units', part, by simp [hes], ?_, ⟨?_, hwide.begun⟩,
        fun as hx => ?_, fun e hx hb => hbad e (Exit.map_eq_failure.mp hx) hb⟩
      · rw [List.append_assoc]
        exact hattempt.adds.trans hadds
      · exact .cons (hwhole.extend hadds) hlength hwide.reserved
      · obtain ⟨as', has, _⟩ := Exit.map_eq_success.mp hx
        exact hall as' has

theorem runs_seconds {items : List CreateOrderItemDto} {x : Exit Error (List ℕ)}
    (h : Effect.Runs State.exec
      (Effect.all (items.map (fun _ => ProductStockCacheStore.second))) s x t) (hs : Known s) :
    ∃ nows, x = .success nows ∧ nows.length = items.length ∧ (∀ now ∈ nows, now ≤ t.second) ∧
      Adds [] s t := by
  induction items generalizing s t x with
  | nil =>
    obtain ⟨rfl, rfl⟩ := Effect.runs_succeed.mp h
    exact ⟨[], rfl, rfl, by simp, .refl hs⟩
  | cons item items ih =>
    obtain ⟨y, u, hy, hrest⟩ := Effect.runs_flatMap.mp h
    obtain ⟨now, u', hnow, hy⟩ := Effect.runs_perform.mp hy
    obtain ⟨rfl, ms, rfl⟩ := exec_dateNow hnow
    obtain ⟨rfl, rfl⟩ := Effect.runs_succeed.mp hy
    have hwait : Adds [] s (s.wait ms) := .of_same hs rfl (List.Subset.refl _) (Nat.le_add_right _ _)
    obtain ⟨z, hz, rfl⟩ := Effect.runs_map.mp hrest
    obtain ⟨nows, rfl, hlen, hle, hadds⟩ := ih hz hwait.known
    refine ⟨s.clock / 1000 :: nows, rfl, by simp [hlen], List.forall_mem_cons.mpr ⟨?_, hle⟩,
      hwait.trans hadds⟩
    exact second_mono ((hwait.trans hadds).clock)

theorem runs_reserveStock_items {items : List CreateOrderItemDto} {x : Exit Error (List Unit)}
    (h : Effect.Runs State.exec (OrderFacade.reserveStock userId items) s x t) (hs : Known s) :
    ∃ before rest units part, items = before ++ rest ∧ Adds (units ++ part) s t ∧
      Leaves userId s t before rest units part ∧
      (∀ as, x = .success as → rest = []) ∧
      (∀ e, x = .failure e → e.isBadRequest = true → rest ≠ [] ∧ part = []) := by
  obtain ⟨y, u, hy, hx⟩ := Effect.runs_flatMap.mp h
  obtain ⟨nows, rfl, hlen, hle, hseconds⟩ := runs_seconds hy hs
  have hnow : ∀ e ∈ nows.zip items, e.1 ≤ u.second := fun e he => hle e.1 (List.of_mem_zip he).1
  obtain ⟨before, rest, units, part, hitems, hadds, hleaves, hall, hbad⟩ :=
    runs_reserveAll hx hseconds.known hnow
  rw [List.map_snd_zip (Nat.le_of_eq hlen.symm)] at hitems
  exact ⟨before, rest, units, part, hitems, hseconds.trans hadds, hleaves.widen hseconds, hall, hbad⟩

theorem exec_aside {c : Request} {r : c.Reply} (hc : Aside c) (h : State.exec c s r t) (hs : Known s) :
    Adds [] s t := by
  obtain ⟨u, ms, hact, rfl⟩ := h
  have hclock : s.clock ≤ (u.wait ms).clock := by
    rw [← act_clock hact]
    exact Nat.le_add_right _ _
  obtain rfl | ⟨d, rfl, rfl⟩ | ⟨id, rfl, rfl⟩ | ⟨id, data, rfl, rfl⟩ | ⟨b, w, rfl, rfl⟩ := act_cases hact
  · exact .of_same hs rfl (List.Subset.refl _) hclock
  · cases d with
    | get key => exact .of_same hs rfl (List.Subset.refl _) hclock
    | set key value seconds => exact .of_same hs rfl (List.Subset.refl _) hclock
    | _ => exact hc.elim
  · exact .of_same hs rfl (List.subset_cons_self _ _) hclock
  · exact hc.elim
  · exact .of_same hs rfl (List.Subset.refl _) hclock

theorem Polite.aside {A : Type} {program : Shopping A} {x : Exit Error A} (h : Polite Aside program)
    (hr : Effect.Runs State.exec program s x t) (hs : Known s) : Adds [] s t :=
  (Effect.Confined.runs (F := fun u => Adds [] s u) h hr (.refl hs)
    (fun _ s _ t _ hexec => ⟨s, t, hexec⟩)
    (fun _ _ _ _ hc hexec hadds => hadds.trans (exec_aside hc hexec hadds.known))).2

theorem createOrderItemCommands_polite (items : List CreateOrderItemDto) :
    Polite Aside (OrderFacade.createOrderItemCommands items) :=
  OrderFacade.confined_createOrderItemCommands (fun _ => ProductService.confined_getBy
    (fun _ => trivial) (fun _ => trivial) trivial rfl rfl)

theorem ordering_polite (userId : ℕ) (orderItems : List CreateOrderItemCommand) :
    Effect.Confined Effect.anyAnswer (fun _ => True) (fun e => e.isBadRequest = false)
      ((OrderService.createOrder userId orderItems).flatMap Facades.OrderFacade.createOutboxEvent) := by
  have hstatement : ∀ q : Query, Effect.Confined Effect.anyAnswer (fun _ => True)
      (fun e => e.isBadRequest = false) (tryPromise q) := by
    refine fun q => Effect.confined_perform.mpr ⟨trivial, fun r _ => ?_⟩
    cases r with
    | none => exact Effect.confined_fail.mpr rfl
    | some v => exact Effect.confined_succeed
  have hcreate : Effect.Confined Effect.anyAnswer (fun _ => True) (fun e => e.isBadRequest = false)
      (OrderRepository.create userId) := by
    refine Effect.confined_perform.mpr ⟨trivial, fun r _ => ?_⟩
    cases r with
    | none => exact Effect.confined_die
    | some v => exact Effect.confined_succeed
  refine (hcreate.flatMap (fun order => ((hstatement _).flatMap (fun _ => ?_)).map)).flatMap
    (fun info => (hstatement _).map.map)
  split
  · exact Effect.confined_fail.mpr rfl
  · exact hstatement _

theorem createOrder_polite (userId : ℕ) (orderItems : List CreateOrderItemCommand) :
    Polite Aside (OrderFacade.createOrder userId orderItems) := by
  refine Effect.confined_perform.mpr ⟨trivial, fun r hr => ?_⟩
  obtain ⟨s, _, u, ms, ⟨w, hexec, rfl⟩, rfl⟩ := hr
  match r with
  | .resolved info => exact Effect.confined_succeed
  | .rejected none => exact Effect.confined_fail.mpr rfl
  | .rejected (some e) =>
    obtain ⟨⟨t, ht⟩, _⟩ := hexec
    have hbody : Effect.Confined Effect.anyAnswer (fun _ => True) (fun e => e.isBadRequest = false)
        (PrismaService.effectWithTransaction ((OrderService.createOrder userId orderItems).flatMap
          Facades.OrderFacade.createOutboxEvent)) := by
      refine (ordering_polite userId orderItems).catchAll (fun e he => ?_)
      split
      · exact Effect.confined_fail.mpr he
      · exact Effect.confined_fail.mpr rfl
    have he := (hbody.runs (F := fun _ => True) ht trivial (fun _ _ _ _ _ _ => trivial)
      (fun _ _ _ _ _ _ _ => trivial)).1 e rfl
    refine Effect.confined_fail.mpr ?_
    rw [PrismaService.rejection]
    split
    · exact he
    · rfl

theorem runs_order {items : List CreateOrderItemDto} {x : Exit Error (CreateOrderInfo ⊕ String)}
    (h : Effect.Runs State.exec (OrderFacade.order userId items) s x t) :
    ∃ y, Effect.Runs State.exec ((OrderFacade.reserveStock userId items).flatMap (fun _ =>
        (OrderFacade.createOrderItemCommands items).flatMap (OrderFacade.createOrder userId))) s y t ∧
      ∀ message, x = .success (.inr message) → ∃ e, y = .failure e ∧ e.isBadRequest = true := by
  obtain ⟨z, u, hz, hx⟩ := Effect.runs_catchAll.mp h
  obtain ⟨y, hy, rfl⟩ := Effect.runs_map.mp hz
  rw [Effect.flatMap_assoc] at hy
  cases y with
  | success info =>
    obtain ⟨rfl, rfl⟩ := Effect.runs_succeed.mp hx
    exact ⟨_, hy, by rintro message ⟨⟩⟩
  | failure e =>
    simp only [Exit.map, Effect.handle] at hx
    split at hx
    · rename_i he
      obtain ⟨_, rfl⟩ := Effect.runs_succeed.mp hx
      exact ⟨_, hy, fun _ _ => ⟨e, rfl, he⟩⟩
    · obtain ⟨rfl, rfl⟩ := Effect.runs_fail.mp hx
      exact ⟨_, hy, by rintro message ⟨⟩⟩
  | defect =>
    obtain ⟨rfl, rfl⟩ := Effect.runs_die.mp hx
    exact ⟨_, hy, by rintro message ⟨⟩⟩

/-- A call adds units of the items up to some point, and takes none away again. -/
theorem order_leaves {items : List CreateOrderItemDto} {x : Exit Error (CreateOrderInfo ⊕ String)}
    (h : Effect.Runs State.exec (OrderFacade.order userId items) s x t) (hs : Known s) :
    ∃ before rest units part, items = before ++ rest ∧ Adds (units ++ part) s t ∧
      Leaves userId s t before rest units part ∧
      (∀ message, x = .success (.inr message) → rest ≠ [] ∧ part = []) := by
  obtain ⟨y, hy, hmessage⟩ := runs_order h
  obtain ⟨z, v, hz, hy⟩ := Effect.runs_flatMap.mp hy
  obtain ⟨before, rest, units, part, hitems, hadds, hleaves, _, hbad⟩ := runs_reserveStock_items hz hs
  have hlater : Polite Aside ((OrderFacade.createOrderItemCommands items).flatMap
      (OrderFacade.createOrder userId)) :=
    Effect.Confined.flatMap (createOrderItemCommands_polite items) (createOrder_polite userId)
  have hend : Adds [] v t ∧ ∀ e, y = .failure e → e.isBadRequest = true → z = .failure e := by
    cases z with
    | success as =>
      refine ⟨hlater.aside hy hadds.known, ?_⟩
      rintro e rfl he
      cases (hlater.failure hy).symm.trans he
    | failure e =>
      obtain ⟨rfl, rfl⟩ := Effect.runs_fail.mp hy
      exact ⟨.refl hadds.known, fun _ h _ => Exit.failure.inj h ▸ rfl⟩
    | defect =>
      obtain ⟨rfl, rfl⟩ := Effect.runs_die.mp hy
      exact ⟨.refl hadds.known, fun _ h => nomatch h⟩
  refine ⟨before, rest, units, part, hitems, ?_, hleaves.extend hend.1, fun message hm => ?_⟩
  · simpa using hadds.trans hend.1
  · obtain ⟨e, he, hb⟩ := hmessage message hm
    exact hbad e (hend.2 e he hb) hb

/-- After a call the live members are those of before whose time is not over, and what the
call has reserved: all units of the items up to some point, and at most some of the next
item. A call that answers `일시 품절` has reserved the items before some item, and no unit of
that item. -/
theorem reserved_units_stay {items : List CreateOrderItemDto}
    {x : Exit Error (CreateOrderInfo ⊕ String)}
    (hs : Known s) (h : Effect.Runs State.exec (OrderFacade.order userId items) s x t) :
    ∃ before rest units part, items = before ++ rest ∧ Leaves userId s t before rest units part ∧
      (∀ message, x = .success (.inr message) → rest ≠ [] ∧ part = []) ∧
      ∀ p m, t.Live p m ↔ (∃ k, (s.reservations p).Has m k ∧ live t.second k = true) ∨
        ∃ unit ∈ units ++ part, unit.productId = p ∧ unit.member = m ∧
          live t.second unit.score = true := by
  obtain ⟨before, rest, units, part, hitems, hadds, hleaves, hmessage⟩ := order_leaves h hs
  refine ⟨before, rest, units, part, hitems, hleaves, hmessage, fun p m => ?_⟩
  constructor
  · rintro ⟨k, hm, hk⟩
    obtain hm | hm := (hadds.has p m k hk).mp hm
    · exact .inl ⟨k, hm, hk⟩
    · exact .inr ⟨_, hm, rfl, rfl, hk⟩
  · rintro (⟨k, hm, hk⟩ | ⟨unit, hm, rfl, rfl, hk⟩)
    · exact ⟨k, (hadds.has p m k hk).mpr (.inl hm), hk⟩
    · exact ⟨unit.score, (hadds.has _ _ _ hk).mpr (.inr hm), hk⟩

end Orders

section Admission

variable {userId : ℕ} {s : State}

theorem reserveStockAt_run (userId : ℕ) {s : State} {p now : ℕ} {stock quantity : ℤ} {id : Uuid}
    (hs : Known s) (hnow : now ≤ s.second) (hstock : s.world.store.db.productStock p = some stock)
    (hroom : ((s.reservations p).count (live now) : ℤ) + quantity ≤ ProductService.cap stock)
    (hid : id ∉ s.issued) : ∃ redis, Effect.Runs State.exec
      (ProductService.reserveStockAt now ⟨p, userId, quantity⟩) s (.success ())
      { s with redis := redis, issued := id :: s.issued } := by
  obtain ⟨n, redis, _, hfound, hcount, _, hchecked⟩ :=
    reserveStockAt_admits userId hs hnow hstock hroom
  obtain ⟨as, redis', hreserve⟩ := reserveStock_run { s with redis := redis } p userId quantity hid
  refine ⟨redis', Effect.runs_flatMap_success.mpr ⟨⟨p, stock⟩, _, hfound,
    Effect.runs_flatMap_success.mpr ⟨n, _, hcount, ?_⟩⟩⟩
  rw [hchecked]
  exact Effect.runs_map_success.mpr ⟨as, hreserve, rfl⟩

theorem Attempt.others {t : State} {item : CreateOrderItemDto} {units : List ReservedUnit}
    (h : Attempt userId s t item (.success ()) units) (hclock : t.clock = s.clock) {p : ℕ}
    (hp : p ≠ item.productId) : t.liveCount p = s.liveCount p := by
  obtain ⟨⟨id, score, done, _, _, _, _, rfl⟩, _⟩ := h.whole rfl
  have hsecond : t.second = s.second := congrArg (· / 1000) hclock
  have hnone : (unitsOf item.productId userId score id done).countP
      (fun unit => unit.productId = p && live s.second unit.score) = 0 :=
    List.countP_eq_zero.mpr (fun unit hunit => by
      obtain ⟨_, _, rfl⟩ := List.mem_map.mp hunit
      simp [Ne.symm hp])
  have hcount := h.adds.count p s.second hsecond.le
  rw [hnone, Nat.add_zero] at hcount
  rw [State.liveCount, hsecond, hcount]
  rfl

theorem reserveAll_run {items : List CreateOrderItemDto} {ids : List Uuid} (hs : Known s)
    (hdistinct : (items.map (·.productId)).Nodup)
    (hroom : ∀ item ∈ items, ∃ stock, s.world.store.db.productStock item.productId = some stock ∧
      (s.liveCount item.productId : ℤ) + item.quantity ≤ ProductService.cap stock)
    (hids : ids.Nodup) (hnew : ∀ id ∈ ids, id ∉ s.issued) (hlen : ids.length = items.length) :
    ∃ redis, Known { s with redis := redis, issued := ids.reverse ++ s.issued } ∧
      Effect.Runs State.exec (Effect.all (items.map (fun item =>
          ProductService.reserveStockAt s.second ⟨item.productId, userId, item.quantity⟩))) s
        (.success (items.map (fun _ => ())))
        { s with redis := redis, issued := ids.reverse ++ s.issued } := by
  induction items generalizing s ids with
  | nil =>
    obtain rfl := List.length_eq_zero_iff.mp hlen
    exact ⟨s.redis, hs, .succeed [] s⟩
  | cons item items ih =>
    obtain ⟨id, ids, rfl⟩ := List.exists_cons_of_length_eq_add_one hlen
    obtain ⟨hout, hdistinct⟩ := List.nodup_cons.mp hdistinct
    obtain ⟨hfresh, hids⟩ := List.nodup_cons.mp hids
    obtain ⟨⟨stock, hstock, hfits⟩, hroom⟩ := List.forall_mem_cons.mp hroom
    obtain ⟨hid, hnew⟩ := List.forall_mem_cons.mp hnew
    obtain ⟨redis, hfirst⟩ := reserveStockAt_run userId hs le_rfl hstock hfits hid
    let u : State := { s with redis := redis, issued := id :: s.issued }
    obtain ⟨units, hattempt⟩ := runs_reserveStockAt hfirst hs le_rfl
    have hroom' : ∀ item' ∈ items, ∃ stock, u.world.store.db.productStock item'.productId = some stock ∧
        (u.liveCount item'.productId : ℤ) + item'.quantity ≤ ProductService.cap stock := by
      intro item' hitem'
      have hne : item'.productId ≠ item.productId :=
        fun he => hout (List.mem_map.mpr ⟨item', hitem', he⟩)
      have hsame : u.liveCount item'.productId = s.liveCount item'.productId := hattempt.others rfl hne
      rw [hsame]
      exact hroom item' hitem'
    have hnew' : ∀ id' ∈ ids, id' ∉ u.issued := fun id' hid' hmem =>
      (List.mem_cons.mp hmem).elim (fun he => hfresh (he ▸ hid')) (hnew id' hid')
    obtain ⟨redis', hknown, hrest⟩ := ih hattempt.adds.known hdistinct hroom' hids hnew' (by simpa using hlen)
    have hissued : ids.reverse ++ u.issued = (id :: ids).reverse ++ s.issued := by
      rw [List.reverse_cons, List.append_assoc]
      rfl
    rw [hissued] at hknown hrest
    exact ⟨redis', hknown, Effect.runs_flatMap_success.mpr ⟨(), u, hfirst,
      Effect.runs_map_success.mpr ⟨_, hrest, rfl⟩⟩⟩

theorem seconds_run (s : State) (items : List CreateOrderItemDto) : Effect.Runs State.exec
    (Effect.all (items.map (fun _ => ProductStockCacheStore.second))) s
    (.success (items.map (fun _ => s.second))) s := by
  induction items with
  | nil => exact .succeed [] s
  | cons item items ih =>
    have hclock : Effect.Runs State.exec ProductStockCacheStore.second s (.success s.second) s :=
      .perform ⟨s, 0, ⟨rfl, rfl⟩, rfl⟩ (.succeed _ _)
    exact Effect.runs_flatMap_success.mpr ⟨_, s, hclock, Effect.runs_map_success.mpr ⟨_, ih, rfl⟩⟩

theorem reserveStock_admitted (userId : ℕ) {items : List CreateOrderItemDto} {ids : List Uuid} (hs : Known s)
    (hdistinct : (items.map (·.productId)).Nodup)
    (hroom : ∀ item ∈ items, ∃ stock, s.world.store.db.productStock item.productId = some stock ∧
      (s.liveCount item.productId : ℤ) + item.quantity ≤ ProductService.cap stock)
    (hids : ids.Nodup) (hnew : ∀ id ∈ ids, id ∉ s.issued) (hlen : ids.length = items.length) :
    ∃ redis, Known { s with redis := redis, issued := ids.reverse ++ s.issued } ∧
      Effect.Runs State.exec (OrderFacade.reserveStock userId items) s
        (.success (items.map (fun _ => ())))
        { s with redis := redis, issued := ids.reverse ++ s.issued } := by
  obtain ⟨redis, hknown, hall⟩ := reserveAll_run hs hdistinct hroom hids hnew hlen
  refine ⟨redis, hknown, Effect.runs_flatMap_success.mpr ⟨_, s, seconds_run s items, ?_⟩⟩
  have hzip : (items.map (fun _ => s.second)).zip items = items.map (fun item => (s.second, item)) := by
    rw [List.zip_map_left, List.zip_eq_zipWith, List.zipWith_self, List.map_map]
    rfl
  rw [hzip, List.map_map]
  exact hall

end Admission

section Scenes

def stocked : State :=
  { opened with
    world := { opened.world with
      store := { opened.world.store with
        db := { opened.world.store.db with
          productStock := fun p => if p = 1 then some 10 else if p = 2 then some 0 else none } } } }

def notAdmitted : Error := .appBadRequest ErrorCodes.temporaryOutOfStock

def basket : List CreateOrderItemDto := [⟨1, 2⟩, ⟨2, 1⟩]

theorem stocked_known : Known stocked := fun _ _ _ hm => absurd hm SortedSet.not_has_empty

theorem first_reserved : ∃ redis, Effect.Runs State.exec
    (ProductService.reserveStockAt 0 ⟨1, 7, 2⟩) stocked (.success ())
    { stocked with redis := redis, issued := [firstId] } := by
  have hstock : stocked.world.store.db.productStock 1 = some 10 := rfl
  exact reserveStockAt_run 7 stocked_known (Nat.zero_le _) hstock (by decide) List.not_mem_nil

theorem second_refused (redis : Redis) : ∃ redis', Effect.Runs State.exec
    (ProductService.reserveStockAt 0 ⟨2, 7, 1⟩) { stocked with redis := redis, issued := [firstId] }
    (.failure notAdmitted) { stocked with redis := redis', issued := [firstId] } := by
  obtain ⟨n, redis', hcount⟩ :=
    countReservedStockAt_run { stocked with redis := redis, issued := [firstId] } 2 0
  refine ⟨redis', Effect.runs_flatMap.mpr ⟨.success ⟨2, 0⟩, _, getById_run rfl,
    Effect.runs_flatMap.mpr ⟨.success n, _, hcount, ?_⟩⟩⟩
  have hshort : ¬ ProductService.cap 0 - (n : ℤ) ≥ 1 := by
    have hcap : ProductService.cap 0 = 0 := by decide
    omega
  simp only [Effect.resume, ProductService.reserveIfAvailable, if_neg hshort]
  exact .fail _ _

theorem basket_refused {redis redis' : Redis}
    (hfirst : Effect.Runs State.exec (ProductService.reserveStockAt 0 ⟨1, 7, 2⟩) stocked (.success ())
      { stocked with redis := redis, issued := [firstId] })
    (hsecond : Effect.Runs State.exec (ProductService.reserveStockAt 0 ⟨2, 7, 1⟩)
      { stocked with redis := redis, issued := [firstId] } (.failure notAdmitted)
      { stocked with redis := redis', issued := [firstId] }) :
    Effect.Runs State.exec (OrderFacade.order 7 basket) stocked (.success (.inr "일시 품절"))
      { stocked with redis := redis', issued := [firstId] } := by
  have hreserve : Effect.Runs State.exec (OrderFacade.reserveStock 7 basket) stocked
      (.failure notAdmitted) { stocked with redis := redis', issued := [firstId] } :=
    Effect.runs_flatMap.mpr ⟨.success [0, 0], stocked, seconds_run stocked basket, Effect.runs_flatMap.mpr
      ⟨.success (), _, hfirst, Effect.runs_flatMap_failure (Effect.runs_flatMap_failure hsecond)⟩⟩
  exact Effect.runs_catchAll_failure (Effect.runs_flatMap_failure (Effect.runs_flatMap_failure
    (Effect.runs_flatMap_failure hreserve))) (.succeed _ _)

theorem reserved_units_stay_basket : ∃ t before rest units part,
    Effect.Runs State.exec (OrderFacade.order 7 basket) stocked (.success (.inr "일시 품절")) t ∧
    basket = before ++ rest ∧ Leaves 7 stocked t before rest units part ∧ rest ≠ [] ∧ part = [] := by
  obtain ⟨redis, hfirst⟩ := first_reserved
  obtain ⟨redis', hsecond⟩ := second_refused redis
  have hrun := basket_refused hfirst hsecond
  obtain ⟨before, rest, units, part, hitems, hleaves, hmessage, _⟩ :=
    reserved_units_stay stocked_known hrun
  exact ⟨_, before, rest, units, part, hrun, hitems, hleaves, hmessage _ rfl⟩

/-- The order is rejected for its second item, and the units of the first stay reserved. -/
theorem reserved_units_left : ¬ ∀ (userId : ℕ) (items : List CreateOrderItemDto) (s t : State)
    (x : Exit Error (CreateOrderInfo ⊕ String)), Known s → items ≠ [] →
    Effect.Runs State.exec (OrderFacade.order userId items) s x t →
    (∀ order, x ≠ .success (.inl order)) → ∀ p m,
    (t.Live p m ↔ ∃ k, (s.reservations p).Has m k ∧ live t.second k = true) := by
  intro h
  obtain ⟨redis, hfirst⟩ := first_reserved
  obtain ⟨redis', hsecond⟩ := second_refused redis
  have hrefused := h 7 basket _ _ _ stocked_known (by decide) (basket_refused hfirst hsecond)
    (by rintro order ⟨⟩)
  obtain ⟨units, hattempt⟩ : ∃ units, Attempt 7 stocked _ ⟨1, 2⟩ (.success ()) units :=
    runs_reserveStockAt hfirst stocked_known (Nat.zero_le _)
  obtain ⟨none, hnone⟩ : ∃ units, Attempt 7 _ _ ⟨2, 1⟩ (.failure notAdmitted) units :=
    runs_reserveStockAt hsecond hattempt.adds.known (Nat.zero_le _)
  obtain rfl := hnone.refused _ rfl rfl
  have hadds := hattempt.adds.trans hnone.adds
  obtain ⟨⟨id, score, done, _, hmin, _, _, hunits⟩, hlen⟩ := hattempt.whole rfl
  obtain ⟨unit, hunit⟩ : ∃ unit, unit ∈ units :=
    List.exists_mem_of_length_pos (by rw [hlen]; decide)
  have hlive : live stocked.second unit.score = true := by
    rw [hunits] at hunit
    obtain ⟨seq, _, rfl⟩ := List.mem_map.mp hunit
    simp only [live, decide_eq_true_eq]
    exact (Nat.lt_add_of_pos_right (by decide)).trans_le hmin
  have hhas := (hadds.has unit.productId unit.member unit.score hlive).mpr
    (.inr (List.mem_append_left _ hunit))
  obtain ⟨k, hm, _⟩ := (hrefused unit.productId unit.member).mp ⟨unit.score, hhas, hlive⟩
  exact SortedSet.not_has_empty hm

end Scenes

end EcommerceService.Leftovers
