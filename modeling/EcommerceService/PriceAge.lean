import EcommerceService.OrderReservations

namespace EcommerceService.PriceAge

open EcommerceService.Effects EcommerceService.Errors EcommerceService.Models
open EcommerceService.Cache EcommerceService.Storefront EcommerceService.Pool
open EcommerceService.Histories EcommerceService.Shop EcommerceService.OrderCalls
open EcommerceService.Reservations (firstId)
open EcommerceService.Checkout (orderCall commandsOf createOrder_eq)
open EcommerceService.ProductCache (productKey productKey_inj found found_iff exec_get exec_find
  exec_strings get_exec find_exec set_exec)

inductive Look where
  | order (userId : ℕ) (items : List CreateOrderItemDto)
  | getBy (productId : ℕ)
deriving DecidableEq, Repr

structure Visit where
  since : ℕ
  look : Look
deriving DecidableEq, Repr

abbrev Outcome : Type := (CreateOrderInfo ⊕ String) ⊕ ProductInfo

def Look.program : Look → Shopping Outcome
  | .order userId items => (OrderFacade.order userId items).map .inl
  | .getBy productId => (ProductService.getBy productId).map .inr

def elsewhere (s t : State) : Prop :=
  s.clock ≤ t.clock ∧
    ∀ key, t.redis.strings key = s.redis.strings key ∨ t.redis.strings key = none

def visits : System ℕ Visit Request Request.Reply Error Outcome State where
  exec := State.exec
  program := fun j => j.look.program
  start := fun _ j s t => j.since = s.clock ∧ t = s
  env := elsewhere

abbrev Configuration : Type 1 := Config ℕ Visit Request Request.Reply Error Outcome State

abbrev Action : Type 1 := Label ℕ Visit Request Request.Reply

/-- No text is cached more than `delay` milliseconds after the call that caches it has begun. -/
def Prompt (delay : ℕ) (c : Configuration) : Action → Prop
  | .call i (.redis (.set _ _ _)) _ =>
      ∀ j p, c.pool i = some (j, p) → c.shared.clock ≤ j.since + delay
  | _ => True

def ttl : ℕ := 1000 * ProductCacheStore.productCacheTtl

/-- In one of the states the product was what its row says, not more than `slack` before `since`. -/
def Recent (passed : List State) (id : ℕ) (info : ProductInfo) (since slack : ℕ) : Prop :=
  ∃ t ∈ passed, since ≤ t.clock + slack ∧
    ∃ row, t.product id = some row ∧ info = .from (ProductModel.from id row)

def Got (id : ℕ) (info : ProductInfo) (h : Calls) : Prop :=
  (∃ row, (⟨.findUniqueOrThrowProduct id, some row⟩ : Answered) ∈ h ∧
    info = .from (ProductModel.from id row)) ∨
  ∃ text, (⟨.redis (.get (productKey id)), some (some text)⟩ : Answered) ∈ h ∧
    info = .from text.written

section Programs

variable {j : Visit} {h : Calls}

/-- Only a row that was read is cached, under its own id, and an order is placed at the prices
that it was given for its items. -/
def may (j : Visit) : Request → Calls → Prop
  | .redis (.set key text seconds), h => seconds = ProductCacheStore.productCacheTtl ∧ ∃ id row,
      key = productKey id ∧ text.written = ProductModel.from id row ∧
        (⟨.findUniqueOrThrowProduct id, some row⟩ : Answered) ∈ h
  | .backend b, h => ∃ userId items products, j.look = .order userId items ∧
      b = orderCall userId (commandsOf items products) ∧
        List.Forall₂ (fun item product => Got item.productId product h) items products
  | _, _ => True

def post (j : Visit) (x : Exit Error Outcome) (h : Calls) : Prop :=
  ∀ id info, j.look = .getBy id → x = .success (.inr info) → Got id info h

abbrev anyReply : (q : Request) → Calls → q.Reply → Prop := fun _ _ _ => True

theorem Got.mono {id : ℕ} {info : ProductInfo} {h' : Calls} (hg : Got id info h) (hh : h ⊆ h') :
    Got id info h' :=
  hg.imp (fun ⟨row, hrow, hinfo⟩ => ⟨row, hh hrow, hinfo⟩)
    (fun ⟨text, htext, hinfo⟩ => ⟨text, hh htext, hinfo⟩)

theorem obeys_getBy (id : ℕ) : Obeys anyReply (may j)
    (fun x h' => ∀ info, x = .success info → Got id info h') (ProductService.getBy id) h := by
  have hfetch : ∀ h, Obeys anyReply (may j) (fun x h' => ∀ info, x = .success info → Got id info h')
      (ProductService.fetchAndCacheProduct id) h := by
    refine fun h => ⟨trivial, fun r _ => ?_⟩
    cases r with
    | none => exact fun info hinfo => nomatch hinfo
    | some row =>
      have hrow : (⟨.findUniqueOrThrowProduct id, some row⟩ : Answered) ∈
          h ++ [⟨.findUniqueOrThrowProduct id, some row⟩] :=
        List.mem_append_right _ List.mem_cons_self
      refine ⟨⟨rfl, id, row, rfl, rfl, hrow⟩, fun r _ => ?_⟩
      cases r with
      | none => exact fun info hinfo => nomatch hinfo
      | some _ =>
        rintro _ ⟨⟩
        exact .inl ⟨row, List.mem_append_left _ hrow, rfl⟩
  refine ⟨trivial, fun r _ => ?_⟩
  cases r with
  | none => exact hfetch _
  | some found =>
    cases found with
    | none => exact hfetch _
    | some text =>
      rintro _ ⟨⟩
      exact .inr ⟨text, List.mem_append_right _ List.mem_cons_self, rfl⟩

theorem obeys_createOrderItemCommands (items : List CreateOrderItemDto) :
    Obeys anyReply (may j) (fun x h' => ∀ commands, x = .success commands → ∃ products,
        commands = commandsOf items products ∧
          List.Forall₂ (fun item product => Got item.productId product h') items products)
      (OrderFacade.createOrderItemCommands items) h := by
  induction items generalizing h with
  | nil =>
    rintro _ ⟨⟩
    exact ⟨[], rfl, .nil⟩
  | cons item items ih =>
    refine Obeys.flatMap (Obeys.flatMap (Obeys.mono (obeys_getBy item.productId)
      (fun x h₁ _ hx => ?_)))
    cases x with
    | failure e => exact fun commands hcommands => nomatch hcommands
    | defect => exact fun commands hcommands => nomatch hcommands
    | success product =>
      refine Obeys.flatMap (Obeys.mono ih (fun y h₂ hh hy => ?_))
      cases y with
      | failure e => exact fun commands hcommands => nomatch hcommands
      | defect => exact fun commands hcommands => nomatch hcommands
      | success commands =>
        rintro _ ⟨⟩
        obtain ⟨products, rfl, hgot⟩ := hy commands rfl
        exact ⟨product :: products, rfl, .cons ((hx product rfl).mono hh.subset) hgot⟩

def Unpriced : Request → Prop
  | .redis (.set _ _ _) => False
  | .backend _ => False
  | _ => True

theorem Unpriced.may {q : Request} (hq : Unpriced q) : may j q h := by
  match q with
  | .redis (.set _ _ _) => exact hq.elim
  | .redis (.get _) => trivial
  | .redis (.zadd _ _ _) => trivial
  | .redis (.zcount _ _ _) => trivial
  | .redis (.zremrangebyscore _ _ _) => trivial
  | .backend _ => exact hq.elim
  | .dateNow => trivial
  | .randomUUID => trivial
  | .findUniqueOrThrowProduct _ => trivial
  | .updateProduct _ _ => trivial
  | .findUniqueOrThrowProductStock _ => trivial

theorem obeys_order {userId : ℕ} {items : List CreateOrderItemDto} (hj : j.look = .order userId items) :
    Obeys anyReply (may j) (fun _ _ => True) (OrderFacade.order userId items) h := by
  have hreserve : Obeys anyReply (may j) (fun _ _ => True) (OrderFacade.reserveStock userId items) h := by
    refine .of_confined (P := Unpriced) (Q := fun _ => True) (F := fun _ => True) ?_ trivial
      (fun q h' hq _ => ⟨hq.may, fun _ => trivial⟩)
    exact OrderFacade.confined_reserveStock trivial (fun _ _ => ProductService.confined_reserveStockAt
      trivial trivial (fun _ => trivial) (fun _ _ _ => trivial) (fun _ => trivial) (fun _ _ => trivial)
      (fun _ => trivial))
  have hbody : Obeys anyReply (may j) (fun _ _ => True) (((OrderFacade.reserveStock userId items).flatMap
      (fun _ => OrderFacade.createOrderItemCommands items)).flatMap (OrderFacade.createOrder userId)) h := by
    refine Obeys.flatMap (Obeys.flatMap (Obeys.mono hreserve (fun x h₁ _ _ => ?_)))
    cases x with
    | failure e => trivial
    | defect => trivial
    | success as =>
      refine Obeys.mono (obeys_createOrderItemCommands items) (fun y h₂ _ hy => ?_)
      cases y with
      | failure e => trivial
      | defect => trivial
      | success commands =>
        obtain ⟨products, rfl, hgot⟩ := hy commands rfl
        change Obeys _ _ _ (OrderFacade.createOrder userId _) _
        rw [createOrder_eq]
        refine ⟨⟨userId, items, products, hj, rfl, hgot⟩, fun r _ => ?_⟩
        cases r with
        | resolved info => trivial
        | rejected e => trivial
  refine Obeys.catchAll (Obeys.flatMap (Obeys.mono hbody (fun x h' _ _ => ?_)))
  cases x with
  | success info => trivial
  | defect => trivial
  | failure e =>
    change Obeys _ _ _ (if e.isBadRequest then _ else _) _
    split <;> trivial

theorem obeys_program (j : Visit) : Obeys anyReply (may j) (post j) (visits.program j) [] := by
  change Obeys anyReply (may j) (post j) j.look.program []
  cases hlook : j.look with
  | order userId items =>
    refine Obeys.flatMap (Obeys.mono (obeys_order hlook) (fun x h _ _ => ?_))
    cases x with
    | failure e => rintro _ _ _ ⟨⟩
    | defect => rintro _ _ _ ⟨⟩
    | success o => rintro _ _ _ ⟨⟩
  | getBy id =>
    refine Obeys.flatMap (Obeys.mono (obeys_getBy id) (fun x h _ hx => ?_))
    cases x with
    | failure e => rintro _ _ _ ⟨⟩
    | defect => rintro _ _ _ ⟨⟩
    | success info =>
      rintro id' info' hid ⟨⟩
      cases hlook.symm.trans hid
      exact hx info rfl

end Programs

/-- What a visit has been told: rows of states that it has seen, and texts of products as they
were not long before it began. -/
structure Told (passed : List State) (delay since : ℕ) (h : Calls) : Prop where
  rows : ∀ id row, (⟨.findUniqueOrThrowProduct id, some row⟩ : Answered) ∈ h →
    ∃ t ∈ passed, since ≤ t.clock ∧ t.product id = some row
  texts : ∀ id text, (⟨.redis (.get (productKey id)), some (some text)⟩ : Answered) ∈ h →
    Recent passed id (.from text.written) since (ttl + delay)

/-- Each cached text expires in time after a state in which the product was as it says. -/
def Dated (passed : List State) (delay : ℕ) (s : State) : Prop :=
  ∀ id text expiry, s.redis.strings (productKey id) = some (text, expiry) →
    ∃ t ∈ passed, expiry ≤ t.clock + (ttl + delay) ∧
      ∃ row, t.product id = some row ∧ text.written = ProductModel.from id row

/-- The orders that have come to their transaction are placed at recent prices. -/
def Priced (passed : List State) (delay : ℕ) (w : List (Visit × Answered)) : Prop :=
  ∀ j b reply, (j, (⟨.backend b, reply⟩ : Answered)) ∈ w → ∃ userId items products,
    j.look = .order userId items ∧ b = orderCall userId (commandsOf items products) ∧
      List.Forall₂ (fun item product =>
        Recent passed item.productId product j.since (ttl + delay)) items products

section Steps

variable {passed passed' : List State} {delay since id : ℕ} {h : Calls} {s t : State} {j : Visit}
  {q : Request} {r : q.Reply}

theorem Recent.grow {info : ProductInfo} {slack : ℕ} (hr : Recent passed id info since slack)
    (hp : passed ⊆ passed') : Recent passed' id info since slack := by
  obtain ⟨t, ht, hrest⟩ := hr
  exact ⟨t, hp ht, hrest⟩

theorem Told.grow (ht : Told passed delay since h) (hp : passed ⊆ passed') :
    Told passed' delay since h where
  rows id row hrow := by
    obtain ⟨t, hmem, hrest⟩ := ht.rows id row hrow
    exact ⟨t, hp hmem, hrest⟩
  texts id text htext := (ht.texts id text htext).grow hp

theorem Dated.grow (hd : Dated passed delay s) (hp : passed ⊆ passed') : Dated passed' delay s := by
  intro id text expiry htext
  obtain ⟨t, hmem, hrest⟩ := hd id text expiry htext
  exact ⟨t, hp hmem, hrest⟩

theorem Priced.grow {w : List (Visit × Answered)} (hw : Priced passed delay w)
    (hp : passed ⊆ passed') : Priced passed' delay w := by
  intro j b reply hmem
  obtain ⟨userId, items, products, hlook, hb, hrecent⟩ := hw j b reply hmem
  exact ⟨userId, items, products, hlook, hb, hrecent.imp (fun _ _ hr => hr.grow hp)⟩

theorem Told.nil : Told passed delay since [] := ⟨fun _ _ => nofun, fun _ _ => nofun⟩

theorem Told.got {info : ProductInfo} (ht : Told passed delay since h) (hgot : Got id info h) :
    Recent passed id info since (ttl + delay) := by
  obtain ⟨row, hrow, rfl⟩ | ⟨text, htext, rfl⟩ := hgot
  · obtain ⟨t, hmem, hsince, hproduct⟩ := ht.rows id row hrow
    exact ⟨t, hmem, by omega, row, hproduct, rfl⟩
  · exact ht.texts id text htext

theorem Dated.found {text : ProductText} (hd : Dated passed delay s) (hsince : since ≤ s.clock)
    (hfound : found s (productKey id) = some text) :
    Recent passed id (.from text.written) since (ttl + delay) := by
  obtain ⟨expiry, hkept, hlive⟩ := found_iff.mp hfound
  obtain ⟨t, hmem, hexpiry, row, hrow, htext⟩ := hd id text expiry hkept
  exact ⟨t, hmem, by omega, row, hrow, congrArg ProductInfo.from htext⟩

theorem Told.call (ht : Told passed delay since h) (hd : Dated passed delay s) (hs : s ∈ passed)
    (hsince : since ≤ s.clock) (hexec : State.exec q s r t) :
    Told passed delay since (h ++ [⟨q, r⟩]) where
  rows id row hrow := by
    obtain hrow | hrow := List.mem_append.mp hrow
    · exact ht.rows id row hrow
    · cases List.mem_singleton.mp hrow
      exact ⟨s, hs, hsince, (exec_find hexec).2 row rfl⟩
  texts id text htext := by
    obtain htext | htext := List.mem_append.mp htext
    · exact ht.texts id text htext
    · cases List.mem_singleton.mp htext
      exact hd.found hsince ((exec_get hexec).2 _ rfl).symm

/-- A text is cached of a row that was read after the call began. -/
theorem Dated.call (hd : Dated passed delay s) (ht : Told passed delay j.since h) (hmay : may j q h)
    (hexec : State.exec q s r t)
    (hprompt : ∀ key text seconds, q = .redis (.set key text seconds) → s.clock ≤ j.since + delay) :
    Dated passed delay t := by
  intro id text expiry htext
  obtain hold | ⟨seconds, rfl, rfl⟩ := exec_strings hexec htext
  · exact hd id text expiry hold
  · obtain ⟨rfl, id', row, hkey, hwritten, hread⟩ := hmay
    obtain rfl := productKey_inj.mp hkey
    obtain ⟨u, hmem, hsince, hrow⟩ := ht.rows id row hread
    have hclock := hprompt _ _ _ rfl
    have httl : ttl = 1000 * ProductCacheStore.productCacheTtl := rfl
    exact ⟨u, hmem, by omega, row, hrow, hwritten⟩

end Steps

/-- What is cached and what the visits were told is recent. -/
structure Aged (delay : ℕ) (own : ℕ → Calls) (w : List (Visit × Answered)) (passed : List State)
    (c : Configuration) : Prop where
  obey : AllObey (fun _ => anyReply) may post own c
  here : c.shared ∈ passed
  running : ∀ i j p, c.pool i = some (j, p) →
    j.since ≤ c.shared.clock ∧ Told passed delay j.since (own i)
  dated : Dated passed delay c.shared
  priced : Priced passed delay w

section Runs

variable {delay i : ℕ} {own : ℕ → Calls} {w w' : List (Visit × Answered)} {passed : List State}
  {c c' : Configuration} {s s' : State} {h : Calls} {j : Visit}
  {r : Record ℕ Visit Request Request.Reply State}

theorem Aged.quiet (hs : ∀ id, s.redis.strings (productKey id) = none) :
    Aged delay (fun _ => []) [] [s] (Pool.quiet s) where
  obey _ _ _ h := nomatch h
  here := List.mem_singleton_self s
  running _ _ _ h := nomatch h
  dated id text expiry htext := by cases (hs id).symm.trans htext
  priced _ _ _ h := nomatch h

theorem Aged.turn {v : Option (Visit × Shopping Outcome)} (ha : Aged delay own w passed c)
    (hclock : c.shared.clock ≤ s'.clock) (hdated : Dated passed delay s')
    (hvisit : ∀ j p, v = some (j, p) → j.since ≤ s'.clock ∧ Told passed delay j.since h)
    (hpriced : Priced passed delay w')
    (hobey : AllObey (fun _ => anyReply) may post (Function.update own i h)
      (⟨s', Function.update c.pool i v⟩ : Configuration)) :
    Aged delay (Function.update own i h) (w ++ w') (passed ++ [s'])
      ⟨s', Function.update c.pool i v⟩ := by
  have hgrow : passed ⊆ passed ++ [s'] := List.subset_append_left _ _
  refine ⟨hobey, by simp, fun i' j p hp => ?_, hdated.grow hgrow, fun j b reply hmem => ?_⟩
  · obtain ⟨rfl, hv⟩ | ⟨hne, hp⟩ := pool_update hp
    · obtain ⟨hsince, htold⟩ := hvisit j p hv
      rw [Function.update_self]
      exact ⟨hsince, htold.grow hgrow⟩
    · obtain ⟨hsince, htold⟩ := ha.running i' j p hp
      rw [Function.update_of_ne hne]
      exact ⟨hsince.trans hclock, htold.grow hgrow⟩
  · obtain hmem | hmem := List.mem_append.mp hmem
    · exact ha.priced.grow hgrow j b reply hmem
    · exact hpriced.grow hgrow j b reply hmem

theorem Priced.call {q : Request} {r : q.Reply} (ht : Told passed delay j.since h)
    (hmay : may j q h) : Priced passed delay [(j, ⟨q, r⟩)] := by
  intro j' b reply hmem
  cases List.mem_singleton.mp hmem
  obtain ⟨userId, items, products, hlook, hb, hgot⟩ := hmay
  exact ⟨userId, items, products, hlook, hb, hgot.imp (fun _ _ hg => ht.got hg)⟩

theorem Aged.step {l : Action} (ha : Aged delay own w passed c) (hs : Step visits c l c')
    (hok : Prompt delay c l) :
    Aged delay (keep own l) (w ++ entry c l) (passed ++ [c'.shared]) c' := by
  have hobey : AllObey (fun _ => anyReply) may post (keep own l) c' :=
    ha.obey.step obeys_program hs (fun _ _ _ _ _ _ _ => trivial)
  have hnone : Priced passed delay [] := fun _ _ _ hmem => nomatch hmem
  cases hs with
  | @env s' henv =>
    obtain ⟨hclock, hstrings⟩ := henv
    have hgrow : passed ⊆ passed ++ [s'] := List.subset_append_left _ _
    have hdated : Dated passed delay s' := by
      intro id text expiry htext
      obtain hsame | hgone := hstrings (productKey id)
      · exact ha.dated id text expiry (hsame ▸ htext)
      · cases hgone.symm.trans htext
    simp only [entry, List.append_nil]
    exact ⟨hobey, by simp, fun i j p hp => ⟨(ha.running i j p hp).1.trans hclock,
      (ha.running i j p hp).2.grow hgrow⟩, hdated.grow hgrow, ha.priced.grow hgrow⟩
  | @start i j _ hi hstart =>
    obtain ⟨hsince, rfl⟩ := hstart
    refine ha.turn le_rfl ha.dated ?_ hnone hobey
    rintro _ _ ⟨⟩
    exact ⟨hsince.le, .nil⟩
  | @call i j q k r s' hi hexec =>
    obtain ⟨hsince, htold⟩ := ha.running i j _ hi
    have hmay : may j q (own i) := (ha.obey i j _ hi).1
    have hclock := exec_clock hexec
    have hentry : entry c (.call i q r) = [(j, ⟨q, r⟩)] := by simp [entry, hi]
    have hprompt : ∀ key text seconds, q = .redis (.set key text seconds) →
        c.shared.clock ≤ j.since + delay := by
      rintro key text seconds rfl
      exact hok j _ hi
    rw [hentry]
    refine ha.turn hclock (ha.dated.call htold hmay hexec hprompt) ?_ (.call htold hmay) hobey
    rintro _ _ ⟨⟩
    exact ⟨hsince.trans hclock, htold.call ha.dated ha.here hsince hexec⟩
  | @stop i =>
    refine ha.turn le_rfl ha.dated ?_ hnone hobey
    rintro _ _ ⟨⟩

theorem Aged.recorded (hs : ∀ id, s.redis.strings (productKey id) = none)
    (h : Recorded visits (Prompt delay) s r c) : Aged delay r.own r.calls r.passed c := by
  induction h with
  | quiet => exact .quiet hs
  | step _ hstep hok ih => exact ih.step hstep hok

/-- If no product is cached to begin with, and each text is cached within `delay` milliseconds of
the beginning of its call: a price at which an order is placed, or which a product is shown at, is
one that the product had at most 24 hours and `delay` before the call began. -/
theorem prices_recent (hs : ∀ id, s.redis.strings (productKey id) = none)
    (h : Recorded visits (Prompt delay) s r c) :
    (∀ j b reply, (j, (⟨.backend b, reply⟩ : Answered)) ∈ r.calls → ∃ userId items products,
      j.look = .order userId items ∧ b = orderCall userId (commandsOf items products) ∧
        List.Forall₂ (fun item product =>
          Recent r.passed item.productId product j.since (ttl + delay)) items products) ∧
      ∀ i j id info, c.pool i = some (j, .succeed (.inr info)) → j.look = .getBy id →
        Recent r.passed id info j.since (ttl + delay) := by
  have haged := Aged.recorded hs h
  refine ⟨haged.priced, fun i j id info hi hlook => ?_⟩
  have hgot : post j (.success (.inr info)) (r.own i) := haged.obey i j _ hi
  exact (haged.running i j _ hi).2.got (hgot id info hlook rfl)

section Scenes

def ordering : Visit := ⟨0, .order 7 Checkout.basket⟩

def looking (since : ℕ) : Visit := ⟨since, .getBy 1⟩

/-- The tea costs more, and an hour has passed. -/
def dearer (s : State) : State := { s with product := fun _ => some ⟨"tea", 9⟩, clock := 3600000 }

def emptied (s : State) : State := { s with redis := { s.redis with strings := fun _ => none } }

theorem comes_prompt {A : Type} {p : Shopping A} {q : Request} {s t : State}
    (h : Effect.Comes OrderReservations.Reading p s q t) : s.clock ≤ t.clock ∧
      Effect.Comes (fun q s r u => State.exec q s r u ∧ s.clock ≤ t.clock) p s q t := by
  induction h with
  | here => exact ⟨le_rfl, .here⟩
  | later hexec _ ih =>
    have hclock := (exec_clock hexec.1).trans ih.1
    exact ⟨hclock, .later ⟨hexec.1, hclock⟩ ih.2⟩

theorem prompt_at {i : ℕ} {v : Visit} {q : Request} {r : q.Reply} {s : State} {p : Shopping Outcome}
    {pool : ℕ → Option (Visit × Shopping Outcome)} (hclock : s.clock ≤ 0) :
    Prompt 0 ⟨s, Function.update pool i (some (v, p))⟩ (.call i q r) := by
  cases q with
  | redis d =>
    cases d with
    | set key text seconds => exact fun j p _ => hclock.trans (Nat.zero_le _)
    | _ => trivial
  | _ => trivial

theorem found_dearer {s : State} (hs : s.clock = 0) (text : ProductText) :
    found (dearer (s.send (.set (productKey 1) text ProductCacheStore.productCacheTtl)))
      (productKey 1) = some text := by
  simp [found, Redis.find, dearer, State.send, Redis.run, hs, ProductCacheStore.productCacheTtl]

/-- The tea is looked at while it is ordered, and an hour after its price has risen it is still
shown at the old one. -/
theorem prices_recent_repriced : ∃ r c info products, Recorded visits (Prompt 0) Checkout.counter r c ∧
    List.Forall₂ (fun (item : CreateOrderItemDto) product =>
      Recent r.passed item.productId product 0 (ttl + 0)) Checkout.basket products ∧
    c.pool 2 = some (looking 3600000, .succeed (.inr info)) ∧ info.price = 2 ∧
    c.shared.product 1 = some ⟨"tea", 9⟩ ∧ Recent r.passed 1 info 3600000 (ttl + 0) := by
  let tea : ProductText := ⟨ProductModel.from 1 ⟨"tea", 2⟩⟩
  obtain ⟨redis, hcomes⟩ := OrderReservations.customer_comes Checkout.counter.redis
    Checkout.counter_known (fun _ => rfl)
  let sold : State := { Checkout.counter with
    redis := redis, issued := [Checkout.secondId, firstId],
    world := Checkout.picnic.opening.commit .order Checkout.picnic.orderedStore }
  let cached := (emptied sold).send (.set (productKey 1) tea ProductCacheStore.productCacheTtl)
  have hlooks : Effect.Comes (fun q s r t => State.exec q s r t ∧ s.clock ≤ 0) (looking 0).look.program
      Checkout.counter (.redis (.set (productKey 1) tea ProductCacheStore.productCacheTtl))
      Checkout.counter := .later ⟨get_exec _, le_rfl⟩ (.later ⟨find_exec rfl, le_rfl⟩ .here)
  have hbegun : Recorded visits (Prompt 0) Checkout.counter _ _ :=
    Recorded.quiet.step (.start (i := 1) (j := looking 0) rfl ⟨rfl, rfl⟩) trivial
  obtain ⟨_, k, hwaits⟩ := hbegun.comes hlooks (fun _ _ _ _ => prompt_at)
  have hordered := hwaits.step (.start (i := 0) (j := ordering) rfl ⟨rfl, rfl⟩) trivial
  obtain ⟨w, k', harrived⟩ := hordered.comes (Effect.comes_map.mpr (comes_prompt hcomes).2)
    (fun _ _ _ _ => prompt_at)
  have hplaced := harrived.step (.call (Function.update_self 0 _ _)
    (OrderReservations.picnic_commits redis [Checkout.secondId, firstId])) trivial
  have hempties : visits.env sold (emptied sold) := ⟨le_rfl, fun _ => .inr rfl⟩
  have hemptied := hplaced.step (.env hempties) trivial
  have hstores : visits.exec (.redis (.set (productKey 1) tea ProductCacheStore.productCacheTtl))
      (emptied sold) (some ()) cached := set_exec _ _ _
  have hcached := hemptied.step (.call (i := 1) rfl hstores) (fun _ _ _ => Nat.zero_le _)
  have hrises : visits.env cached (dearer cached) := ⟨Nat.zero_le _, fun _ => .inl rfl⟩
  have hdearer := hcached.step (.env hrises) trivial
  have hagain := hdearer.step (.start (i := 2) (j := looking 3600000) rfl ⟨rfl, rfl⟩) trivial
  have hfound : found (dearer cached) (productKey 1) = some tea := found_dearer rfl tea
  have hget : State.exec (.redis (.get (productKey 1))) (dearer cached) (some (some tea)) (dearer cached) :=
    hfound ▸ get_exec (productKey 1)
  have hshown := hagain.step (.call (i := 2) rfl hget) trivial
  obtain ⟨hpriced, hlook⟩ := prices_recent (fun _ => rfl) hshown
  obtain ⟨userId, items, products, hitems, _, hrecent⟩ := hpriced ordering
    (orderCall 7 Checkout.picnic.commands) (Backend.Settled.resolved Checkout.picnic.info)
    (by simp [entry])
  cases hitems
  exact ⟨_, _, _, products, hshown, hrecent, rfl, rfl, rfl, hlook 2 (looking 3600000) 1 _ rfl rfl⟩

end Scenes

end Runs

end EcommerceService.PriceAge
