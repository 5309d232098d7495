import EcommerceService.OrderData
import EcommerceService.ProductCache
import EcommerceService.SagaRuns
import EcommerceService.Leftovers

namespace EcommerceService.Checkout

open EcommerceService.Effects EcommerceService.Errors EcommerceService.Models
open EcommerceService.Database EcommerceService.Backend EcommerceService.Services
open EcommerceService.Pool EcommerceService.Saga EcommerceService.SagaCalls
open EcommerceService.TransactionEffects EcommerceService.SortedSets EcommerceService.Cache
open EcommerceService.Storefront
open EcommerceService.Shop EcommerceService.OrderData
open EcommerceService.SagaRuns EcommerceService.Reservations EcommerceService.Leftovers
open EcommerceService.ProductCache (productKey productKey_inj exec_strings)

structure Setting where
  shop : State
  pool : ℕ → Option (Saga.Job × Service Unit)

namespace Setting

def saga (g : Setting) : Saga.Configuration := ⟨g.shop.world, g.pool⟩

def db (g : Setting) : Tables := g.shop.world.store.db

end Setting

/-- The calls of the storefront: a product is cached under its own id, and the transaction
of the backend is that of a new order. -/
def Calls : Request → Prop
  | .redis (.set key text _) => key = productKey text.written.id
  | .backend c => ∃ userId commands, Makes (.order userId commands) c
  | _ => True

/-- What else happens: a step of the saga, a call of another request, another service that
changes the stocks, the wallets or the points, and Redis drops a text. -/
inductive Elsewhere : Setting → Setting → Prop
  | saga {g : Setting} {c : Saga.Configuration} {l : Saga.Action} : Step Saga.saga g.saga l c →
      Elsewhere g ⟨{ g.shop with world := c.shared }, c.pool⟩
  | request {g : Setting} {q : Request} {r : q.Reply} {t : State} : Calls q →
      State.exec q g.shop r t → Elsewhere g ⟨t, g.pool⟩
  | tables {g : Setting} {t : Store} : SameData g.db t.db →
      Elsewhere g ⟨{ g.shop with world := { g.shop.world with store := t } }, g.pool⟩
  | drop {g : Setting} (key : String) : Elsewhere g ⟨{ g.shop with
      redis := { g.shop.redis with strings := Function.update g.shop.redis.strings key none } }, g.pool⟩

abbrev Meanwhile : Setting → Setting → Prop := Relation.ReflTransGen Elsewhere

/-- A call of a request, after all that has happened since its last one. -/
def amid (q : Request) (g : Setting) (r : q.Reply) (g' : Setting) : Prop :=
  ∃ h, Meanwhile g h ∧ ∃ t, State.exec q h.shop r t ∧ g' = ⟨t, h.pool⟩

structure Opening (g : Setting) : Prop where
  world : Initial g.shop.world
  pool : ∀ i, g.pool i = none
  cached : ∀ id text expiry, g.shop.redis.strings (productKey id) = some (text, expiry) →
    text.written.id = id

structure Kept (g : Setting) : Prop where
  steady : Steady g.saga
  cached : ∀ id text expiry, g.shop.redis.strings (productKey id) = some (text, expiry) →
    text.written.id = id

section Happening

variable {g g' : Setting} {info : CreateOrderInfo}

theorem Kept.opening (h : Opening g) : Kept g := by
  have hsaga : g.saga = quiet g.shop.world := congrArg (Config.mk g.shop.world) (funext h.pool)
  exact ⟨hsaga ▸ Steady.initial h.world, h.cached⟩

theorem exec_world {q : Request} {r : q.Reply} {s t : State} (hq : Calls q)
    (h : State.exec q s r t) : t.world = s.world ∨
      ∃ userId commands c v, Makes (.order userId commands) c ∧ World.exec c s.world v t.world := by
  obtain ⟨u, ms, hact, rfl⟩ := h
  cases q with
  | backend c =>
    obtain ⟨userId, commands, hmakes⟩ := hq
    obtain ⟨w, hexec, rfl⟩ := hact
    exact .inr ⟨userId, commands, c, r, hmakes, hexec⟩
  | _ =>
    obtain rfl | ⟨d, _, rfl⟩ | ⟨id, _, rfl⟩ | ⟨id, data, _, rfl⟩ | ⟨b, w, hb, _⟩ := act_cases hact
    · exact .inl rfl
    · exact .inl rfl
    · exact .inl rfl
    · exact .inl rfl
    · cases hb

theorem exec_cached {q : Request} {r : q.Reply} {s t : State} (hq : Calls q)
    (h : State.exec q s r t) {id : ℕ} {text : ProductText} {expiry : ℕ}
    (ht : t.redis.strings (productKey id) = some (text, expiry)) :
    text.written.id = id ∨ s.redis.strings (productKey id) = some (text, expiry) := by
  obtain hold | ⟨seconds, rfl, _⟩ := exec_strings h ht
  · exact .inr hold
  · exact .inl (productKey_inj.mp hq).symm

theorem Kept.elsewhere (h : Kept g) (hg : Elsewhere g g') : Kept g' ∧ Keeps g.db g'.db := by
  cases hg with
  | saga hs => exact ⟨⟨h.steady.step hs, h.cached⟩, step_keeps hs⟩
  | @request q r t hq hexec =>
    have hcached : ∀ id text expiry, t.redis.strings (productKey id) = some (text, expiry) →
        text.written.id = id := by
      intro id text expiry ht
      obtain hid | hs := exec_cached hq hexec ht
      · exact hid
      · exact h.cached id text expiry hs
    obtain hworld | ⟨userId, commands, c, v, hmakes, hworld⟩ := exec_world hq hexec
    · have hkeeps : Keeps g.db t.world.store.db := by
        rw [hworld]
        exact fun _ => id
      exact ⟨⟨h.steady.move (hworld ▸ h.steady.faithful) hkeeps, hcached⟩, hkeeps⟩
    · have hkeeps : Keeps g.db t.world.store.db := exec_keeps hworld
      exact ⟨⟨h.steady.move (makes_faithful hmakes h.steady.faithful trivial hworld) hkeeps, hcached⟩,
        hkeeps⟩
  | @tables t hsame =>
    have hkeeps : Keeps g.db t.db := fun _ => hsame.recorded.mpr
    have hfaithful := h.steady.faithful
    exact ⟨⟨h.steady.move (hfaithful.advance (hfaithful.rows.same hsame) hkeeps) hkeeps, h.cached⟩,
      hkeeps⟩
  | drop key =>
    refine ⟨⟨h.steady, fun id text expiry ht => ?_⟩, fun _ => id⟩
    by_cases hkey : productKey id = key
    · subst hkey
      simp at ht
    · exact h.cached id text expiry (by simpa [hkey] using ht)

theorem Kept.meanwhile (h : Kept g) (hg : Meanwhile g g') : Kept g' ∧ Keeps g.db g'.db := by
  induction hg with
  | refl => exact ⟨h, fun _ => id⟩
  | tail _ hlast ih =>
    obtain ⟨hkept, hkeeps⟩ := ih
    obtain ⟨hkept', hkeeps'⟩ := hkept.elsewhere hlast
    exact ⟨hkept', fun info => hkeeps' info ∘ hkeeps info⟩

end Happening

section Programs

variable {userId : ℕ}

def Front : Request → Prop
  | .redis (.set key text _) => key = productKey text.written.id
  | .backend _ => False
  | _ => True

theorem Front.calls {q : Request} (h : Front q) : Calls q := by
  match q with
  | .redis (.set key text seconds) => exact h
  | .redis (.get key) => trivial
  | .redis (.zadd key score member) => trivial
  | .redis (.zcount key min max) => trivial
  | .redis (.zremrangebyscore key min max) => trivial
  | .backend c => exact h.elim
  | .dateNow => trivial
  | .randomUUID => trivial
  | .findUniqueOrThrowProduct id => trivial
  | .updateProduct id data => trivial
  | .findUniqueOrThrowProductStock productId => trivial

def Fronted {A : Type} (p : Shopping A) : Prop :=
  Effect.Confined Effect.anyAnswer Front (fun _ => True) p

theorem getBy_fronted (productId : ℕ) : Fronted (ProductService.getBy productId) :=
  ProductService.confined_getBy (fun _ => trivial) (fun _ => rfl) trivial trivial trivial

theorem reserveStock_fronted (userId : ℕ) (items : List CreateOrderItemDto) :
    Fronted (OrderFacade.reserveStock userId items) :=
  OrderFacade.confined_reserveStock trivial (fun _ _ => ProductService.confined_reserveStockAt trivial
    trivial (fun _ => trivial) (fun _ _ _ => trivial) (fun _ => trivial) (fun _ _ => trivial) (fun _ => trivial))

theorem Fronted.meanwhile {A : Type} {p : Shopping A} {g g' : Setting} {x : Exit Error A}
    (h : Fronted p) (hr : Effect.Runs amid p g x g') : Meanwhile g g' := by
  refine (Effect.Confined.runs (F := Meanwhile g) h hr .refl (fun _ _ _ _ _ _ => trivial) ?_).2
  rintro q g₁ r _ hq ⟨g₂, hwhile, t, hexec, rfl⟩ hg
  exact (hg.trans hwhile).tail (.request hq.calls hexec)

end Programs

section Prices

inductive Looked : Setting → List CreateOrderItemDto → List ProductInfo → Setting → Prop
  | nil {g : Setting} : Looked g [] [] g
  | cons {g h g' : Setting} {item : CreateOrderItemDto} {items : List CreateOrderItemDto}
      {product : ProductInfo} {products : List ProductInfo} :
      Effect.Runs amid (ProductService.getBy item.productId) g (.success product) h →
      Looked h items products g' → Looked g (item :: items) (product :: products) g'

def priced (items : List CreateOrderItemDto) (products : List ProductInfo) : List OrderItemInfo :=
  List.zipWith (fun item product => ⟨item.productId, item.quantity, product.price⟩) items products

def commandsOf (items : List CreateOrderItemDto) (products : List ProductInfo) :
    List CreateOrderItemCommand :=
  List.zipWith (fun item product => CreateOrderItemCommand.ofProduct product item) items products

variable {g g' : Setting} {items : List CreateOrderItemDto}

theorem runs_createOrderItemCommands {commands : List CreateOrderItemCommand}
    (h : Effect.Runs amid (OrderFacade.createOrderItemCommands items) g (.success commands) g') :
    ∃ products, Looked g items products g' ∧ commands = commandsOf items products := by
  induction items generalizing g commands with
  | nil =>
    obtain ⟨hcommands, rfl⟩ := Effect.runs_succeed.mp h
    cases hcommands
    exact ⟨[], .nil, rfl⟩
  | cons item items ih =>
    obtain ⟨command, u, hfirst, hrest⟩ := Effect.runs_flatMap_success.mp h
    obtain ⟨product, hproduct, rfl⟩ := Effect.runs_map_success.mp hfirst
    obtain ⟨more, hmore, hcommands⟩ := Effect.runs_map_success.mp hrest
    obtain ⟨products, hlooked, rfl⟩ := ih hmore
    exact ⟨product :: products, .cons hproduct hlooked, hcommands⟩

theorem runs_findBy {productId : ℕ} {product : ProductInfo} (hg : Kept g)
    (h : Effect.Runs amid (ProductCacheStore.findBy productId) g (.success (some product)) g') :
    product.id = productId := by
  obtain ⟨found, hfound, hproduct⟩ := Effect.runs_map_success.mp h
  obtain ⟨y, u, hget, hhandle⟩ := Effect.runs_catchAll.mp hfound
  obtain ⟨r, v, ⟨g₁, hwhile, t, ⟨s, ms, hact, rfl⟩, rfl⟩, hr⟩ := Effect.runs_perform.mp hget
  have hkept := (hg.meanwhile hwhile).1
  cases r with
  | none =>
    obtain ⟨rfl, rfl⟩ := Effect.runs_fail.mp hr
    obtain ⟨hnone, _⟩ := Effect.runs_succeed.mp hhandle
    cases hnone
    cases hproduct
  | some answer =>
    obtain ⟨rfl, rfl⟩ := Effect.runs_succeed.mp hr
    obtain ⟨hanswer, _⟩ := Effect.runs_succeed.mp hhandle
    cases hanswer
    obtain ⟨text, htext, rfl⟩ := Option.map_eq_some_iff.mp hproduct.symm
    obtain ⟨hread, _⟩ := hact
    have hfind : g₁.shop.redis.find g₁.shop.clock (productKey productId) = some text :=
      hread.symm.trans htext
    rw [Redis.find] at hfind
    split at hfind
    · rename_i value expiry hstrings
      split at hfind
      · cases hfind
        exact hkept.cached productId _ expiry hstrings
      · cases hfind
    · cases hfind

theorem runs_getBy {productId : ℕ} {product : ProductInfo} (hg : Kept g)
    (h : Effect.Runs amid (ProductService.getBy productId) g (.success product) g') :
    product.id = productId := by
  obtain ⟨cached, u, hfind, hrest⟩ := Effect.runs_flatMap_success.mp h
  cases cached with
  | some cachedProduct =>
    obtain ⟨hproduct, _⟩ := Effect.runs_succeed.mp hrest
    cases hproduct
    exact runs_findBy hg hfind
  | none =>
    obtain ⟨model, htap, rfl⟩ := Effect.runs_map_success.mp hrest
    obtain ⟨v, _, hget, _⟩ := Effect.runs_tap_success.mp htap
    obtain ⟨row, _, rfl⟩ :=
      Effect.runs_map_success.mp ((Effect.runs_catchAll_success (fun _ => ⟨_, rfl⟩)).mp hget)
    rfl

theorem Looked.meanwhile {products : List ProductInfo} (h : Looked g items products g') :
    Meanwhile g g' := by
  induction h with
  | nil => exact .refl
  | cons hfirst _ ih => exact ((getBy_fronted _).meanwhile hfirst).trans ih

theorem Looked.rows {products : List ProductInfo} (h : Looked g items products g') (hg : Kept g)
    (o : ℕ) : (rowsOf o (commandsOf items products)).map infoOf = priced items products := by
  induction h with
  | nil => rfl
  | @cons g h g' item items product products hfirst _ ih =>
    have hid := runs_getBy hg hfirst
    have hrest := ih (hg.meanwhile ((getBy_fronted _).meanwhile hfirst)).1
    simp only [commandsOf, priced, rowsOf, List.zipWith_cons_cons, List.map_cons] at hrest ⊢
    rw [hrest]
    exact congrArg (· :: _) (congrArg (OrderItemInfo.mk · _ _) hid)

end Prices

section Scenes

theorem runs_alone {A : Type} {p : Shopping A} {s t : State} {x : Exit Error A}
    (pool : ℕ → Option (Saga.Job × Service Unit)) (h : Effect.Runs State.exec p s x t) :
    Effect.Runs amid p ⟨s, pool⟩ x ⟨t, pool⟩ := by
  induction h with
  | succeed a s => exact .succeed a _
  | fail e s => exact .fail e _
  | die s => exact .die _
  | perform hexec _ ih => exact .perform ⟨_, .refl, _, hexec, rfl⟩ ih

theorem items_priced (items : List CreateOrderItemDto) (row : ℕ → ProductRow) {s : State}
    (h : ∀ item ∈ items, s.product item.productId = some (row item.productId)) :
    ∃ redis, Effect.Runs State.exec (OrderFacade.createOrderItemCommands items) s
      (.success (items.map (fun item => ⟨item.productId, item.quantity, (row item.productId).price⟩)))
      { s with redis := redis } := by
  induction items generalizing s with
  | nil => exact ⟨s.redis, .succeed [] s⟩
  | cons item items ih =>
    obtain ⟨hrow, hrows⟩ := List.forall_mem_cons.mp h
    let found := row item.productId
    let product : ProductModel := ⟨item.productId, found.name, found.price⟩
    have hmiss : Effect.Runs State.exec (RedisClient.tryPromise (.get (productKey item.productId))) s
        (.failure .unknownException) s :=
      Effect.runs_perform.mpr ⟨none, s, ⟨s, 0, .inl rfl, rfl⟩, .fail _ s⟩
    have hfind : Effect.Runs State.exec (ProductCacheStore.findBy item.productId) s (.success none) s :=
      Effect.runs_map_success.mpr ⟨none, Effect.runs_catchAll_failure hmiss (.succeed none s), rfl⟩
    have hget : Effect.Runs State.exec (ProductRepository.getById item.productId) s (.success product) s :=
      Effect.runs_catchAll.mpr ⟨.success product, s, Effect.runs_map_success.mpr ⟨found,
        Effect.runs_perform.mpr ⟨some found, s, ⟨s, 0, ⟨hrow, rfl⟩, rfl⟩, .succeed _ s⟩, rfl⟩,
        .succeed _ s⟩
    let t : State :=
      s.send (.set (productKey item.productId) ⟨product⟩ ProductCacheStore.productCacheTtl)
    have hcache : Effect.Runs State.exec (ProductCacheStore.cache product) s (.success ()) t :=
      tryPromise_run _ s
    have hlook : Effect.Runs State.exec (ProductService.getBy item.productId) s
        (.success ⟨item.productId, found.name, found.price⟩) t :=
      Effect.runs_flatMap_success.mpr ⟨none, s, hfind, Effect.runs_map_success.mpr
        ⟨product, Effect.runs_tap_success.mpr ⟨s, (), hget, hcache⟩, rfl⟩⟩
    obtain ⟨redis, hrest⟩ := ih (s := t) hrows
    exact ⟨redis, Effect.runs_flatMap_success.mpr ⟨_, t, Effect.runs_map_success.mpr ⟨_, hlook, rfl⟩,
      Effect.runs_map_success.mpr ⟨_, hrest, rfl⟩⟩⟩

def picnic : Purchase where
  userId := 7
  commands := [⟨1, 3, 2⟩, ⟨2, 1, 3⟩]
  stock p := if p = 1 then some 10 else if p = 2 then some 4 else none
  points := 10
  filled := List.cons_ne_nil _ _
  distinct := by decide

def basket : List CreateOrderItemDto := [⟨1, 3⟩, ⟨2, 1⟩]

def rowOf (id : ℕ) : ProductRow := if id = 1 then ⟨"tea", 2⟩ else ⟨"cake", 3⟩

def counter : State :=
  { opened with
    world := picnic.opening
    product := fun id => some (rowOf id) }

def secondId : Uuid := ⟨"b", by decide⟩

theorem picnic_covered : ¬ picnic.placed.Short := by
  refine Purchase.covered (fun item hitem n hn => ?_)
  obtain rfl | rfl : item = ⟨1, 3, 2⟩ ∨ item = ⟨2, 1, 3⟩ := by simpa [picnic] using hitem
  all_goals
    cases hn
    decide

theorem picnic_enough : picnic.info.totalAmount ≤ picnic.points := by
  norm_num [CreateOrderInfo.totalAmount, Purchase.info, Purchase.items, CreateOrderInfo.ofModels, picnic]

theorem counter_known : Known counter := fun _ _ _ hm => absurd hm SortedSet.not_has_empty

theorem basket_reserved {redis : Redis} (userId : ℕ) (hs : Known { counter with redis := redis })
    (hnone : ∀ p, ({ counter with redis := redis } : State).liveCount p = 0) : ∃ redis',
      Effect.Runs State.exec (OrderFacade.reserveStock userId basket) { counter with redis := redis }
        (.success [(), ()]) { counter with redis := redis', issued := [secondId, firstId] } := by
  have hroom : ∀ item ∈ basket, ∃ stock,
      counter.world.store.db.productStock item.productId = some stock ∧
        (({ counter with redis := redis } : State).liveCount item.productId : ℤ) + item.quantity ≤
          ProductService.cap stock := by
    intro item hitem
    rw [hnone]
    obtain rfl | rfl : item = ⟨1, 3⟩ ∨ item = ⟨2, 1⟩ := by simpa [basket] using hitem
    · exact ⟨10, rfl, by decide⟩
    · exact ⟨4, rfl, by decide⟩
  have hids : [firstId, secondId].Nodup := by decide
  obtain ⟨redis', _, hreserve⟩ := reserveStock_admitted userId hs (by decide) hroom hids
    (fun _ _ => List.not_mem_nil) rfl
  exact ⟨redis', hreserve⟩

theorem basket_priced (redis : Redis) : ∃ redis', Effect.Runs State.exec
    (OrderFacade.createOrderItemCommands basket)
    { counter with redis := redis, issued := [secondId, firstId] } (.success picnic.commands)
    { counter with redis := redis', issued := [secondId, firstId] } :=
  items_priced basket rowOf (s := { counter with redis := redis, issued := [secondId, firstId] })
    (fun _ _ => rfl)

end Scenes

section Orders

variable {userId o : ℕ} {items : List CreateOrderItemDto} {g g' : Setting} {c : Call}

def orderCall (userId : ℕ) (commands : List CreateOrderItemCommand) : Call :=
  .transaction .order CreateOrderInfo (PrismaService.effectWithTransaction
    ((OrderService.createOrder userId commands).flatMap Facades.OrderFacade.createOutboxEvent))

def afterOrder : Settled CreateOrderInfo → Shopping CreateOrderInfo
  | .resolved info => .succeed info
  | .rejected e => .fail (PrismaService.rejection e)

theorem createOrder_eq (userId : ℕ) (commands : List CreateOrderItemCommand) :
    OrderFacade.createOrder userId commands =
      .perform (.backend (orderCall userId commands)) afterOrder := by
  refine congrArg (Effect.perform _) (funext (fun r => ?_))
  cases r with
  | resolved info => rfl
  | rejected e => rfl

theorem createOrder_comes {commands : List CreateOrderItemCommand}
    (h : Effect.Comes amid (OrderFacade.createOrder userId commands) g (.backend c) g') :
    g' = g ∧ c = orderCall userId commands := by
  rw [createOrder_eq] at h
  cases h with
  | here => exact ⟨rfl, rfl⟩
  | @later _ _ _ _ _ _ r _ hrest =>
    cases r with
    | resolved info => exact absurd hrest Effect.not_comes_succeed
    | rejected e => exact absurd hrest Effect.not_comes_fail

/-- An order comes to its transaction after its stock is reserved and its products are looked
up, and the transaction is of these products. -/
theorem order_comes
    (h : Effect.Comes amid (OrderFacade.order userId items) g (.backend c) g') :
    ∃ us u products, Effect.Runs amid (OrderFacade.reserveStock userId items) g (.success us) u ∧
      Looked u items products g' ∧ c = orderCall userId (commandsOf items products) := by
  have hfront : Fronted ((OrderFacade.reserveStock userId items).flatMap
      (fun _ => OrderFacade.createOrderItemCommands items)) :=
    (reserveStock_fronted userId items).flatMap (fun _ =>
      OrderFacade.confined_createOrderItemCommands getBy_fronted)
  obtain h | ⟨e, u, _, h⟩ := Effect.comes_catchAll.mp h
  · obtain h | ⟨commands, u, hrun, h⟩ := Effect.comes_flatMap.mp (Effect.comes_map.mp h)
    · exact (Effect.Within.comes hfront h (fun _ _ _ _ _ => trivial)).elim
    · obtain ⟨rfl, rfl⟩ := createOrder_comes h
      obtain ⟨us, v, hreserve, hlook⟩ := Effect.runs_flatMap_success.mp hrun
      obtain ⟨products, hlooked, rfl⟩ := runs_createOrderItemCommands hlook
      exact ⟨us, v, products, hreserve, hlooked, rfl⟩
  · split at h
    · exact absurd h Effect.not_comes_succeed
    · exact absurd h Effect.not_comes_fail

/-- The call, made some time after `g`, commits the order `o`, whatever is reported of it. -/
def Commits (c : Call) (o : ℕ) (g g' : Setting) : Prop :=
  ∃ h r t, Meanwhile g h ∧ State.exec (.backend c) h.shop r t ∧ g' = ⟨t, h.pool⟩ ∧
    h.db.order o = none ∧ g'.db.order o ≠ none

theorem exec_placed {commands : List CreateOrderItemCommand} {s t : State}
    {r : (orderCall userId commands).Reply}
    (h : State.exec (.backend (orderCall userId commands)) s r t)
    (hnone : s.world.store.db.order o = none) (hsome : t.world.store.db.order o ≠ none) :
    ∃ info u, info.order.id = o ∧ Placed userId commands info s.world.store u ∧
      t.world.store.db = u.db := by
  obtain ⟨_, ms, ⟨w, hexec, rfl⟩, rfl⟩ := h
  cases World.exec_change hexec with
  | same => exact absurd hnone hsome
  | @commit _ _ _ info _ u hr =>
    have hplaced := runs_placed (runs_effectWithTransaction.mp hr)
    refine ⟨info, u, ?_, hplaced, rfl⟩
    by_contra hid
    have huser := congrFun hplaced.user o
    rw [Function.update_of_ne (Ne.symm hid), userOf, userOf, hnone] at huser
    exact hsome (Option.map_eq_none_iff.mp huser)

def decoded (row : OutboxEventRow) : Option CreateOrderInfo :=
  Facades.orderInfoOf (Facades.received row.payload.stringify)

/-- The order's rows agree on its data: it is of this user, and its items are these. -/
structure AsOrdered (userId o : ℕ) (ordered : List OrderItemInfo) (info : CreateOrderInfo)
    (db : Tables) : Prop where
  created : ∃ row, ∀ row', db.outboxEvent (aggregateId o, .orderCreated) = some row' ↔ row' = row
  decodes : ∀ ty row, db.outboxEvent (aggregateId o, ty) = some row → decoded row = some info
  id : info.order.id = o
  user : info.order.userId = userId
  order : ∃ row, db.order o = some row ∧ row.userId = userId
  rows : info.orderItems.Perm ((itemsOf db o).map infoOf)
  ordered : info.orderItems.Perm ordered

theorem recorded_asOrdered {db : Tables} {info : CreateOrderInfo} {ordered : List OrderItemInfo}
    (hr : Recorded info db) (h : Matching db) (huser : info.order.userId = userId)
    (hordered : info.orderItems.Perm ordered) :
    AsOrdered userId info.order.id ordered info db where
  created := by
    obtain ⟨row, hrow, _⟩ := Option.map_eq_some_iff.mp hr
    refine ⟨row, fun row' => ?_⟩
    rw [show db.outboxEvent (aggregateId info.order.id, .orderCreated) = some row from hrow,
      Option.some.injEq, eq_comm]
  decodes ty row hrow := by
    have hpayload : payloadOf db (aggregateId info.order.id, ty) = some row.payload :=
      congrArg (Option.map _) hrow
    obtain ⟨info', hid, htext, hr'⟩ := h.row _ _ hpayload
    obtain rfl := hr.unique hr' (aggregateId_inj.mp hid)
    rw [decoded, htext]
    exact (payload_decodes info).2.2
  id := rfl
  user := huser
  order := by
    obtain ⟨row, hrow, hid⟩ := Option.map_eq_some_iff.mp (h.user info hr)
    exact ⟨row, hrow, hid.trans huser⟩
  rows := h.items info hr
  ordered := hordered

/-- Whenever a run of `OrderFacade.order` commits the order `o`, among all that else happens,
the data of `o` are from then on the requested products and quantities with the prices that
`ProductService.getBy` has returned in the run: in the rows of `o`, in its `ORDER_CREATED`
row and in every later event row of it. A payment of `o` takes the sum over these rows. -/
theorem charged_as_ordered {g₀ g₁ g₂ : Setting} (hopen : Opening g₀) (hstart : Meanwhile g₀ g)
    (hrun : Effect.Comes amid (OrderFacade.order userId items) g (.backend c) g₁)
    (hcommit : Commits c o g₁ g₂) : ∃ us h products info,
      Effect.Runs amid (OrderFacade.reserveStock userId items) g (.success us) h ∧
      Looked h items products g₁ ∧
      ∀ g₃, Meanwhile g₂ g₃ → AsOrdered userId o (priced items products) info g₃.db ∧
        ∀ i A body r c', Step Saga.saga g₃.saga (.call i (.transaction (.payment o) A body) r) c' →
          (c'.shared = g₃.shop.world ∧ ∃ e, r = .rejected e) ∨
            Charged userId (orderSum g₃.db o) g₃.db c'.shared.store.db := by
  have hkept := ((Kept.opening hopen).meanwhile hstart).1
  obtain ⟨us, h, products, hreserve, hlooked, rfl⟩ := order_comes hrun
  have hkept_h := (hkept.meanwhile ((reserveStock_fronted userId items).meanwhile hreserve)).1
  obtain ⟨g', r, t, hwhile, hexec, rfl, hnone, hsome⟩ := hcommit
  have hkept' := (hkept_h.meanwhile (hlooked.meanwhile.trans hwhile)).1
  obtain ⟨info, u, rfl, hplaced, hdb⟩ := exec_placed hexec hnone hsome
  have hcalls : Calls (.backend (orderCall userId (commandsOf items products))) :=
    ⟨userId, _, .order⟩
  have hkept₂ := (hkept'.elsewhere (.request hcalls hexec)).1
  have hordered : info.orderItems.Perm (priced items products) := by
    rw [← hlooked.rows hkept_h info.order.id, ← hplaced.itemsOf hkept'.steady.faithful.rows]
    exact hplaced.orderItems
  refine ⟨us, h, products, info, hreserve, hlooked, fun g₃ hlater => ?_⟩
  obtain ⟨hkept₃, hkeeps⟩ := hkept₂.meanwhile hlater
  have hr : Recorded info g₃.db := by
    refine hkeeps info ?_
    have hu := hplaced.recorded
    rw [← hdb] at hu
    exact hu
  refine ⟨recorded_asOrdered hr hkept₃.steady.faithful.rows hplaced.owner hordered,
    fun i A body r c' hs => (hkept₃.steady.charged hs).imp_right ?_⟩
  rintro ⟨info', hid, hr', hcharged⟩
  obtain rfl := hr'.unique hr hid
  rw [hplaced.owner] at hcharged
  exact hcharged

/-- The saga goes on while a request waits. -/
theorem meanwhile_saga {s : State} {c c' : Saga.Configuration} (h : Reaches Saga.saga anyStep c c') :
    Meanwhile ⟨{ s with world := c.shared }, c.pool⟩ ⟨{ s with world := c'.shared }, c'.pool⟩ := by
  induction h with
  | refl => exact .refl
  | tail _ hn ih =>
    obtain ⟨l, hs, _⟩ := hn
    exact ih.tail (.saga hs)

/-- Two items of two products are ordered, and the saga goes on until they are paid. -/
theorem charged_as_ordered_picnic : ∃ (g g₁ g₂ g₃ : Setting) (c : Call) (products : List ProductInfo)
    (info : CreateOrderInfo) (i : ℕ) (A : Type) (body : Repositories.Statements A) (r : Settled A)
    (c' : Saga.Configuration), Effect.Comes amid (OrderFacade.order 7 basket) g (.backend c) g₁ ∧
      Commits c 1 g₁ g₂ ∧ Meanwhile g₂ g₃ ∧ AsOrdered 7 1 (priced basket products) info g₃.db ∧
      Step Saga.saga g₃.saga (.call i (.transaction (.payment 1) A body) r) c' ∧
      orderSum g₃.db 1 = 9 ∧ Charged 7 9 g₃.db c'.shared.store.db := by
  let pool : ℕ → Option (Saga.Job × Service Unit) := fun _ => none
  obtain ⟨redis, hreserve⟩ := basket_reserved 7 counter_known (fun _ => rfl)
  obtain ⟨redis', hpriced⟩ := basket_priced redis
  let s : State := { counter with redis := redis', issued := [secondId, firstId] }
  let w := picnic.opening.commit .order picnic.orderedStore
  let t : State := { s with world := w }
  have hopen : Opening ⟨counter, pool⟩ := ⟨picnic.initial, fun _ => rfl, fun _ _ _ => nofun⟩
  have hrun : Effect.Comes amid (OrderFacade.order 7 basket) ⟨counter, pool⟩
      (.backend (orderCall 7 picnic.commands)) ⟨s, pool⟩ :=
    Effect.comes_catchAll.mpr (.inl (Effect.comes_map.mpr (Effect.comes_flatMap.mpr (.inr
      ⟨_, _, Effect.runs_flatMap_success.mpr ⟨_, _, runs_alone pool hreserve, runs_alone pool hpriced⟩,
        .here⟩))))
  have hcommit : Commits (orderCall 7 picnic.commands) 1 ⟨s, pool⟩ ⟨t, pool⟩ :=
    ⟨⟨s, pool⟩, .resolved picnic.info, t, .refl, ⟨t, 0, ⟨_, ⟨_, picnic.ordering_runs, rfl⟩, rfl⟩, rfl⟩,
      rfl, rfl, nofun⟩
  obtain ⟨w₁, hshows, hpublished, _, hreach⟩ :=
    Purchase.placed_offers (Staged.here (w := w) picnic.placed_shows) picnic_covered
  have hm : messageOf picnic.info .orderDeductStock ∈ w₁.published :=
    hpublished ▸ List.mem_cons_of_mem _ List.mem_cons_self
  let job : Saga.Job := .message (messageOf picnic.info .orderDeductStock)
  have hbegun := (hreach _ permits_anyStep).start (i := 0) (j := job) (s := w₁) rfl ⟨hm, rfl⟩ trivial
  have hlater := meanwhile_saga (s := t) hbegun
  obtain ⟨wallet, u, hbody, _⟩ := paying_runs hshows picnic_enough rfl
  have hexec : Saga.saga.exec (.transaction (.payment 1) WalletModel
      (PrismaService.effectWithTransaction (Facades.UserFacade.paying picnic.info))) w₁
      (.resolved wallet) (w₁.commit (.payment 1) u) := ⟨u, runs_effectWithTransaction.mpr hbody, rfl⟩
  let g₃ : Setting := ⟨{ t with world := w₁ }, Function.update pool 0 (some (job, job.program))⟩
  have hpay : Step Saga.saga g₃.saga (.call 0 _ _) _ := .call (i := 0) (j := job) rfl hexec
  obtain ⟨_, _, products, info, _, _, hall⟩ := charged_as_ordered hopen .refl hrun hcommit
  obtain ⟨hordered, hcharged⟩ := hall g₃ hlater
  have hsum : orderSum g₃.db 1 = 9 := by
    have hitems : g₃.db.orderItem = [⟨1, 1, 3, 2⟩, ⟨1, 2, 1, 3⟩] := hshows.items
    norm_num [orderSum, itemsOf, hitems]
  refine ⟨_, _, _, g₃, _, products, info, _, _, _, _, _, hrun, hcommit, hlater, hordered, hpay, hsum, ?_⟩
  obtain ⟨_, _, hrejected⟩ | hpaid := hcharged _ _ _ _ _ hpay
  · cases hrejected
  · exact hsum ▸ hpaid

end Orders

end EcommerceService.Checkout
