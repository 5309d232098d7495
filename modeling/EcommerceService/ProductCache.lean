import EcommerceService.Lib.Pool
import EcommerceService.Reservations

namespace EcommerceService.ProductCache

open EcommerceService.Effects EcommerceService.Errors EcommerceService.Models
open EcommerceService.Cache EcommerceService.Storefront EcommerceService.Pool
open EcommerceService.Shop EcommerceService.Reservations

inductive Job where
  | getBy (productId : ℕ)
  | update (id : ℕ) (data : ProductModel)
deriving DecidableEq, Repr

abbrev Outcome : Type := ProductInfo ⊕ ProductModel

def Job.program : Job → Shopping Outcome
  | .getBy productId => (ProductService.getBy productId).map .inl
  | .update id data => (ProductRepository.update id data).map .inr

def elsewhere (s t : State) : Prop :=
  s.clock ≤ t.clock ∧ t.product = s.product ∧
    ∀ key, t.redis.strings key = s.redis.strings key ∨ t.redis.strings key = none

def catalog : System ℕ Job Request Request.Reply Error Outcome State where
  exec := State.exec
  program := Job.program
  start := fun _ _ s t => t = s
  env := elsewhere

abbrev Configuration : Type 1 := Config ℕ Job Request Request.Reply Error Outcome State

abbrev Action : Type 1 := Label ℕ Job Request Request.Reply

def productKey (productId : ℕ) : String := "product" ++ ":" ++ Nat.repr productId

theorem productKey_inj {id id' : ℕ} : productKey id = productKey id' ↔ id = id' := key_inj

def found (s : State) (key : String) : Option ProductText := s.redis.find s.clock key

def Current (s : State) (id : ℕ) (text : ProductText) : Prop :=
  ∃ row, s.product id = some row ∧ text.written = ProductModel.from id row

def Idle (c : Configuration) (id : ℕ) : Prop :=
  found c.shared (productKey id) = none ∧
    ∀ i text seconds, ¬ Waits c i (.redis (.set (productKey id) text seconds))

/-- The rows are changed of products of which no text is cached or about to be. -/
def Uncached (c : Configuration) : Action → Prop
  | .call _ (.updateProduct id data) _ => ∀ id',
      (c.shared.setProduct id data).product id' = c.shared.product id' ∨ Idle c id'
  | _ => True

section Stages

def fetch (id : ℕ) : Shopping Outcome := (ProductService.fetchAndCacheProduct id).map .inl

def afterGet (id : ℕ) : Option (Option ProductText) → Shopping Outcome
  | some (some text) => .succeed (.inl (.from text.written))
  | _ => fetch id

def storing (m : ProductModel) : Shopping Outcome :=
  (((ProductCacheStore.cache m).map (fun _ => m)).map ProductInfo.from).map .inl

def afterFind (id : ℕ) : Option ProductRow → Shopping Outcome
  | some row => storing (ProductModel.from id row)
  | none => .fail (.appNotFound ErrorCodes.productNotFound)

def afterSet (m : ProductModel) : Option Unit → Shopping Outcome
  | some _ => .succeed (.inl (.from m))
  | none => .fail .unknownException

def afterUpdate (id : ℕ) : Option ProductRow → Shopping Outcome
  | some row => .succeed (.inr (ProductModel.from id row))
  | none => .fail .unknownException

theorem program_getBy (id : ℕ) :
    Job.program (.getBy id) = .perform (.redis (.get (productKey id))) (afterGet id) := by
  refine congrArg (Effect.perform _) (funext (fun r => ?_))
  cases r with
  | none => rfl
  | some text =>
    cases text with
    | none => rfl
    | some text => rfl

theorem fetch_eq (id : ℕ) : fetch id = .perform (.findUniqueOrThrowProduct id) (afterFind id) := by
  refine congrArg (Effect.perform _) (funext (fun r => ?_))
  cases r with
  | none => rfl
  | some row => rfl

theorem storing_eq (m : ProductModel) : storing m = .perform
    (.redis (.set (productKey m.id) ⟨m⟩ ProductCacheStore.productCacheTtl)) (afterSet m) := by
  refine congrArg (Effect.perform _) (funext (fun r => ?_))
  cases r with
  | none => rfl
  | some _ => rfl

theorem program_update (id : ℕ) (data : ProductModel) : Job.program (.update id data) =
    .perform (.updateProduct id data) (afterUpdate data.id) := by
  refine congrArg (Effect.perform _) (funext (fun r => ?_))
  cases r with
  | none => rfl
  | some row => rfl

inductive Stage : Job → Shopping Outcome → Prop
  | looking (id : ℕ) :
      Stage (.getBy id) (.perform (.redis (.get (productKey id))) (afterGet id))
  | fetching (id : ℕ) : Stage (.getBy id) (.perform (.findUniqueOrThrowProduct id) (afterFind id))
  | storing (id : ℕ) (row : ProductRow) : Stage (.getBy id) (.perform (.redis (.set (productKey id)
      ⟨ProductModel.from id row⟩ ProductCacheStore.productCacheTtl)) (afterSet (ProductModel.from id row)))
  | changing (id : ℕ) (data : ProductModel) :
      Stage (.update id data) (.perform (.updateProduct id data) (afterUpdate data.id))
  | succeeded (j : Job) (o : Outcome) : Stage j (.succeed o)
  | failed (j : Job) (e : Error) : Stage j (.fail e)

theorem Stage.program (j : Job) : Stage j j.program := by
  cases j with
  | getBy id => exact program_getBy id ▸ .looking id
  | update id data => exact program_update id data ▸ .changing id data

theorem Stage.next {j : Job} {q : Request} {k : q.Reply → Shopping Outcome}
    (h : Stage j (.perform q k)) (r : q.Reply) : Stage j (k r) := by
  cases h with
  | looking id =>
    have hfetch : Stage (.getBy id) (fetch id) := fetch_eq id ▸ .fetching id
    cases r with
    | none => exact hfetch
    | some text =>
      cases text with
      | none => exact hfetch
      | some text => exact .succeeded _ _
  | fetching id =>
    cases r with
    | none => exact .failed _ _
    | some row =>
      have hstoring : Stage (.getBy id) (ProductCache.storing (ProductModel.from id row)) :=
        storing_eq (ProductModel.from id row) ▸ .storing id row
      exact hstoring
  | storing id row =>
    cases r with
    | none => exact .failed _ _
    | some _ => exact .succeeded _ _
  | changing id data =>
    cases r with
    | none => exact .failed _ _
    | some row => exact .succeeded _ _

end Stages

/-- What is cached and what is about to be cached is current. -/
structure Coherent (c : Configuration) : Prop where
  stages : ∀ i j q, c.pool i = some (j, q) → Stage j q
  cached : ∀ id text, found c.shared (productKey id) = some text → Current c.shared id text
  waiting : ∀ i id text seconds, Waits c i (.redis (.set (productKey id) text seconds)) →
    Current c.shared id text

section Finding

variable {s t : State}

theorem found_iff {key : String} {text : ProductText} :
    found s key = some text ↔ ∃ expiry, s.redis.strings key = some (text, expiry) ∧ s.clock < expiry := by
  rw [found, Redis.find]
  cases s.redis.strings key with
  | none => simp
  | some entry => by_cases hlive : s.clock < entry.2 <;> simp [Prod.ext_iff, hlive]

theorem found_later {key : String} {text : ProductText} (hclock : s.clock ≤ t.clock)
    (h : t.redis.strings key = s.redis.strings key ∨ t.redis.strings key = none)
    (hfound : found t key = some text) : found s key = some text := by
  obtain ⟨expiry, hkept, hlive⟩ := found_iff.mp hfound
  obtain hsame | hnone := h
  · exact found_iff.mpr ⟨expiry, hsame ▸ hkept, hclock.trans_lt hlive⟩
  · cases hnone.symm.trans hkept

theorem found_wait {ms : ℕ} {key : String} {text : ProductText}
    (h : found (s.wait ms) key = some text) : found s key = some text := by
  have hclock : s.clock ≤ (s.wait ms).clock := Nat.le_add_right _ _
  exact found_later hclock (.inl rfl) h

theorem exec_get {key : String} {r : Option (Option ProductText)}
    (h : State.exec (.redis (.get key)) s r t) :
    (∃ ms, t = s.wait ms) ∧ ∀ v, r = some v → v = found s key := by
  obtain ⟨u, ms, hact, rfl⟩ := h
  cases r with
  | none =>
    obtain rfl | rfl := hact
    · exact ⟨⟨ms, rfl⟩, fun _ h => nomatch h⟩
    · exact ⟨⟨ms, rfl⟩, fun _ h => nomatch h⟩
  | some v =>
    obtain ⟨rfl, rfl⟩ := hact
    exact ⟨⟨ms, rfl⟩, fun _ h => (Option.some.inj h).symm⟩

theorem exec_find {id : ℕ} {r : Option ProductRow}
    (h : State.exec (.findUniqueOrThrowProduct id) s r t) :
    (∃ ms, t = s.wait ms) ∧ ∀ row, r = some row → s.product id = some row := by
  obtain ⟨u, ms, hact, rfl⟩ := h
  cases r with
  | none =>
    obtain rfl := hact
    exact ⟨⟨ms, rfl⟩, fun _ h => nomatch h⟩
  | some row =>
    obtain ⟨hrow, rfl⟩ := hact
    exact ⟨⟨ms, rfl⟩, fun _ h => h ▸ hrow⟩

/-- A text that is there after a call was there before, or the call has stored it. -/
theorem exec_strings {q : Request} {r : q.Reply} {key : String} {text : ProductText} {expiry : ℕ}
    (h : State.exec q s r t) (ht : t.redis.strings key = some (text, expiry)) :
    s.redis.strings key = some (text, expiry) ∨
      ∃ seconds, q = .redis (.set key text seconds) ∧ expiry = s.clock + 1000 * seconds := by
  obtain ⟨u, ms, hact, rfl⟩ := h
  obtain rfl | ⟨d, rfl, rfl⟩ | ⟨_, _, rfl⟩ | ⟨_, _, _, rfl⟩ | ⟨_, _, _, rfl⟩ := act_cases hact
  · exact .inl ht
  · cases d with
    | set key' value seconds =>
      have hstrings : Function.update s.redis.strings key'
          (some (value, s.clock + 1000 * seconds)) key = some (text, expiry) := ht
      by_cases hkey : key = key'
      · subst hkey
        rw [Function.update_self] at hstrings
        obtain ⟨rfl, rfl⟩ := Prod.mk.inj (Option.some.inj hstrings)
        exact .inr ⟨seconds, rfl, rfl⟩
      · rw [Function.update_of_ne hkey] at hstrings
        exact .inl hstrings
    | _ => exact .inl ht
  · exact .inl ht
  · exact .inl ht
  · exact .inl ht

theorem exec_set {key : String} {text : ProductText} {seconds : ℕ} {r : Option Unit}
    (h : State.exec (.redis (.set key text seconds)) s r t) : t.product = s.product ∧
      ∀ key' text', found t key' = some text' →
        (key' = key ∧ text' = text) ∨ found s key' = some text' := by
  refine ⟨?_, fun key' text' htext => ?_⟩
  · obtain ⟨u, ms, hact, rfl⟩ := h
    cases r with
    | none => obtain rfl | rfl := hact <;> rfl
    | some v =>
      obtain ⟨_, rfl⟩ := hact
      rfl
  · obtain ⟨expiry, hkept, hlive⟩ := found_iff.mp htext
    obtain hold | ⟨_, ⟨⟩, _⟩ := exec_strings h hkept
    · exact .inr (found_iff.mpr ⟨expiry, hold, (exec_clock h).trans_lt hlive⟩)
    · exact .inl ⟨rfl, rfl⟩

theorem exec_updateProduct {id : ℕ} {data : ProductModel} {r : Option ProductRow}
    (h : State.exec (.updateProduct id data) s r t) : t.redis = s.redis ∧
      (t.product = s.product ∨ t.product = (s.setProduct id data).product) := by
  obtain ⟨u, ms, hact, rfl⟩ := h
  cases r with
  | none =>
    obtain rfl | ⟨_, _, rfl⟩ := hact
    · exact ⟨rfl, .inl rfl⟩
    · exact ⟨rfl, .inr rfl⟩
  | some row =>
    obtain ⟨_, _, _, rfl⟩ := hact
    exact ⟨rfl, .inr rfl⟩

end Finding

section Steps

variable {c : Configuration} {s' : State} {i : ℕ}

/-- A step that changes a row only of an idle product, and caches only what is current. -/
theorem Coherent.move {v : Option (Job × Shopping Outcome)} (h : Coherent c)
    (hstage : ∀ j q, v = some (j, q) → Stage j q)
    (hproduct : ∀ id, s'.product id = c.shared.product id ∨ Idle c id)
    (hfound : ∀ id text, found s' (productKey id) = some text →
      Current s' id text ∨ found c.shared (productKey id) = some text)
    (hwait : ∀ j id text seconds k, v = some (j, .perform (.redis (.set (productKey id) text seconds)) k) →
      Current s' id text) : Coherent ⟨s', Function.update c.pool i v⟩ := by
  have hkeep : ∀ id text, ¬ Idle c id → Current c.shared id text → Current s' id text := by
    rintro id text hidle ⟨row, hrow, htext⟩
    exact ⟨row, ((hproduct id).resolve_right hidle).trans hrow, htext⟩
  refine ⟨fun i' j q hq => ?_, fun id text htext => ?_, fun i' id text seconds hw => ?_⟩
  · obtain ⟨_, hv⟩ | ⟨_, hq⟩ := pool_update hq
    · exact hstage j q hv
    · exact h.stages i' j q hq
  · obtain hcurrent | hold := hfound id text htext
    · exact hcurrent
    · refine hkeep id text (fun hidle => ?_) (h.cached id text hold)
      cases hidle.1.symm.trans hold
  · obtain ⟨j, k, hq⟩ := hw
    obtain ⟨_, hv⟩ | ⟨_, hq⟩ := pool_update hq
    · exact hwait j id text seconds k hv
    · exact hkeep id text (fun hidle => hidle.2 i' text seconds ⟨j, k, hq⟩)
        (h.waiting i' id text seconds ⟨j, k, hq⟩)

theorem Coherent.wait {j : Job} {q : Shopping Outcome} {ms : ℕ} (h : Coherent c) (hstage : Stage j q)
    (hwait : ∀ id text seconds k, q = .perform (.redis (.set (productKey id) text seconds)) k →
      Current c.shared id text) :
    Coherent ⟨c.shared.wait ms, Function.update c.pool i (some (j, q))⟩ := by
  refine h.move ?_ (fun _ => .inl rfl)
    (fun id text ht => .inr (found_wait ht)) ?_
  · rintro _ _ ⟨⟩
    exact hstage
  · rintro j' id text seconds k hv
    exact hwait id text seconds k (Prod.mk.inj (Option.some.inj hv)).2

theorem afterGet_fetches {id id' : ℕ} {r : Option (Option ProductText)} {text : ProductText}
    {seconds : ℕ} {k : Option Unit → Shopping Outcome} :
    afterGet id r ≠ .perform (.redis (.set (productKey id') text seconds)) k := by
  intro h
  have hfetch : fetch id ≠ .perform (.redis (.set (productKey id') text seconds)) k := by
    rw [fetch_eq]
    rintro ⟨⟩
  cases r with
  | none => exact hfetch h
  | some v =>
    cases v with
    | none => exact hfetch h
    | some text => cases h

theorem Coherent.call {j : Job} {q : Request} {r : q.Reply} {k : q.Reply → Shopping Outcome}
    (h : Coherent c) (hi : c.pool i = some (j, .perform q k)) (hexec : State.exec q c.shared r s')
    (hok : Uncached c (.call i q r)) : Coherent ⟨s', Function.update c.pool i (some (j, k r))⟩ := by
  have hstage := h.stages i j _ hi
  have hnext := hstage.next r
  cases hstage with
  | looking id =>
    obtain ⟨⟨ms, rfl⟩, _⟩ := exec_get hexec
    exact h.wait hnext (fun _ _ _ _ hq => absurd hq afterGet_fetches)
  | fetching id =>
    obtain ⟨⟨ms, rfl⟩, hrow⟩ := exec_find hexec
    refine h.wait hnext (fun id' text seconds k hq => ?_)
    cases r with
    | none => cases hq
    | some row =>
      have hq : storing (ProductModel.from id row) =
        .perform (.redis (.set (productKey id') text seconds)) k := hq
      rw [storing_eq] at hq
      injection hq with hset
      injection hset with hset
      injection hset with hkey htext
      obtain rfl := productKey_inj.mp hkey
      exact ⟨row, hrow row rfl, htext ▸ rfl⟩
  | storing id row =>
    obtain ⟨hproduct, hfound⟩ := exec_set hexec
    refine h.move ?_ (fun id' => .inl (congrFun hproduct id')) (fun id' text htext => ?_) ?_
    · rintro _ _ ⟨⟩
      exact hnext
    · obtain ⟨hkey, rfl⟩ | hold := hfound _ text htext
      · obtain rfl := productKey_inj.mp hkey
        obtain ⟨row', hrow', htext⟩ := h.waiting i _ _ _ ⟨_, _, hi⟩
        exact .inl ⟨row', (congrFun hproduct _).trans hrow', htext⟩
      · exact .inr hold
    · rintro _ _ _ _ _ hv
      cases r with
      | none => cases hv
      | some _ => cases hv
  | changing id data =>
    obtain ⟨hredis, hproduct⟩ := exec_updateProduct hexec
    refine h.move ?_ (fun id' => ?_) (fun id' text htext => .inr ?_) ?_
    · rintro _ _ ⟨⟩
      exact hnext
    · obtain hsame | hset := hproduct
      · exact .inl (congrFun hsame id')
      · exact (hok id').imp_left (congrFun hset id').trans
    · exact found_later (exec_clock hexec) (.inl (congrFun (congrArg _ hredis) _)) htext
    · rintro _ _ _ _ _ hv
      cases r with
      | none => cases hv
      | some _ => cases hv

theorem Coherent.step {c' : Configuration} {l : Action} (h : Coherent c) (hstep : Step catalog c l c')
    (hok : Uncached c l) : Coherent c' := by
  cases hstep with
  | env henv =>
    obtain ⟨hclock, hproduct, hstrings⟩ := henv
    refine ⟨h.stages, fun id text htext => ?_, fun i id text seconds hw => ?_⟩
    · obtain ⟨row, hrow, hwritten⟩ := h.cached id text (found_later hclock (hstrings _) htext)
      exact ⟨row, (congrFun hproduct id).trans hrow, hwritten⟩
    · obtain ⟨row, hrow, hwritten⟩ := h.waiting i id text seconds hw
      exact ⟨row, (congrFun hproduct id).trans hrow, hwritten⟩
  | @start i j s' hi hs =>
    obtain rfl := hs
    refine h.move ?_ (fun _ => .inl rfl) (fun _ _ ht => .inr ht) ?_
    · rintro _ _ ⟨⟩
      exact .program j
    · rintro _ id text seconds k hv
      obtain ⟨_, hq⟩ := Prod.mk.inj (Option.some.inj hv)
      cases j with
      | getBy id => cases (program_getBy id).symm.trans hq
      | update id data => cases (program_update id data).symm.trans hq
  | call hi hexec => exact h.call hi hexec hok
  | stop =>
    refine h.move ?_ (fun _ => .inl rfl) (fun _ _ ht => .inr ht) ?_
    · rintro _ _ ⟨⟩
    · rintro _ _ _ _ _ ⟨⟩

end Steps

section Runs

variable {s : State} {c c' : Configuration}

theorem coherent_reaches (hempty : ∀ key, s.redis.strings key = none)
    (h : Reaches catalog Uncached (quiet s) c) : Coherent c := by
  induction h with
  | refl =>
    refine ⟨?_, fun id text h => ?_, ?_⟩
    · rintro _ _ _ ⟨⟩
    · have hnone : found s (productKey id) = none := by rw [found, Redis.find, hempty]
      cases hnone.symm.trans h
    · rintro _ _ _ _ ⟨_, _, ⟨⟩⟩
  | tail _ hnext ih =>
    obtain ⟨l, hstep, hok⟩ := hnext
    exact ih.step hstep hok

/-- While the rows are changed only of products that are not cached, a look at a product that
succeeds returns the row that the table holds then. -/
theorem no_stale_price {i id : ℕ} {q : Request} {r : q.Reply} {info : ProductInfo}
    (hempty : ∀ key, s.redis.strings key = none) (h : Reaches catalog Uncached (quiet s) c)
    (hstep : Step catalog c (.call i q r) c')
    (hret : c'.pool i = some (.getBy id, .succeed (.inl info))) :
    ∃ row, c'.shared.product id = some row ∧ info = ⟨id, row.name, row.price⟩ := by
  have hcoherent := coherent_reaches hempty h
  cases hstep with
  | @call _ j _ k _ s' hi hexec =>
    obtain ⟨rfl, hk⟩ := Prod.mk.inj (Option.some.inj ((Function.update_self i _ _).symm.trans hret))
    cases hcoherent.stages i _ _ hi with
    | looking =>
      obtain ⟨⟨ms, rfl⟩, hfound⟩ := exec_get hexec
      cases r with
      | none => cases (fetch_eq id).symm.trans hk
      | some v =>
        cases v with
        | none => cases (fetch_eq id).symm.trans hk
        | some text =>
          obtain ⟨row, hrow, htext⟩ := hcoherent.cached id text (hfound _ rfl).symm
          cases hk
          exact ⟨row, hrow, congrArg ProductInfo.from htext⟩
    | fetching =>
      cases r with
      | none => cases hk
      | some row => cases (storing_eq (ProductModel.from id row)).symm.trans hk
    | storing _ row =>
      obtain ⟨hproduct, _⟩ := exec_set hexec
      obtain ⟨row', hrow', htext⟩ := hcoherent.waiting i id _ _ ⟨_, _, hi⟩
      cases r with
      | none => cases hk
      | some _ =>
        cases hk
        exact ⟨row', (congrFun hproduct id).trans hrow', congrArg ProductInfo.from htext⟩

end Runs

section Scenes

variable {s : State} {ok : Configuration → Action → Prop} {c₀ : Configuration}

theorem update_exec {id : ℕ} {data : ProductModel} (hid : data.id = id) (hrow : s.product id ≠ none) :
    State.exec (.updateProduct id data) s (some ⟨data.name, data.price⟩) (s.setProduct id data) :=
  ⟨_, 0, ⟨hrow, .inl hid, rfl, rfl⟩, rfl⟩

theorem get_exec (key : String) : State.exec (.redis (.get key)) s (some (found s key)) s :=
  ⟨_, 0, ⟨rfl, rfl⟩, rfl⟩

theorem find_exec {id : ℕ} {row : ProductRow} (hrow : s.product id = some row) :
    State.exec (.findUniqueOrThrowProduct id) s (some row) s := ⟨_, 0, ⟨hrow, rfl⟩, rfl⟩

theorem set_exec (key : String) (text : ProductText) (seconds : ℕ) :
    State.exec (.redis (.set key text seconds)) s (some ()) (s.send (.set key text seconds)) :=
  ⟨_, 0, ⟨rfl, rfl⟩, rfl⟩

def alone (s : State) (j : Job) (q : Shopping Outcome) : Configuration :=
  ⟨s, Function.update (fun _ => none) 0 (some (j, q))⟩

theorem alone_self (s : State) (j : Job) (q : Shopping Outcome) :
    (alone s j q).pool 0 = some (j, q) := by simp [alone]

theorem play_start {j : Job} (h : Reaches catalog ok c₀ (quiet s)) (hok : ∀ c, ok c (.start 0 j)) :
    Reaches catalog ok c₀ (alone s j j.program) := h.start rfl rfl (hok _)

theorem play_step {j : Job} {q : Request} {k : q.Reply → Shopping Outcome} {r : q.Reply} {t : State}
    (hexec : State.exec q s r t) :
    Step catalog (alone s j (.perform q k)) (.call 0 q r) (alone t j (k r)) := by
  have hstep : Step catalog (alone s j (.perform q k)) (.call 0 q r) _ :=
    .call (alone_self _ _ _) hexec
  simpa only [alone, Function.update_idem] using hstep

theorem play_call {j : Job} {q : Request} {k : q.Reply → Shopping Outcome} {r : q.Reply} {t : State}
    (h : Reaches catalog ok c₀ (alone s j (.perform q k))) (hexec : State.exec q s r t)
    (hok : ok (alone s j (.perform q k)) (.call 0 q r)) :
    Reaches catalog ok c₀ (alone t j (k r)) := h.tail ⟨_, play_step hexec, hok⟩

theorem play_stop {j : Job} {q : Shopping Outcome} (h : Reaches catalog ok c₀ (alone s j q))
    (hok : ∀ c, ok c (.stop 0)) : Reaches catalog ok c₀ (quiet s) := by
  have hnext := h.stop 0 (hok _)
  simpa [alone, quiet] using hnext

theorem play_update {id : ℕ} {data : ProductModel} (h : Reaches catalog ok c₀ (quiet s))
    (hid : data.id = id) (hrow : s.product id ≠ none) (hstart : ∀ c j, ok c (.start 0 j))
    (hstop : ∀ c, ok c (.stop 0)) (hcall : ok (alone s (.update id data)
      (.perform (.updateProduct id data) (afterUpdate data.id)))
      (.call 0 (.updateProduct id data) (some ⟨data.name, data.price⟩))) :
    Reaches catalog ok c₀ (quiet (s.setProduct id data)) := by
  have hbegun := play_start (j := .update id data) h (fun c => hstart c _)
  rw [program_update] at hbegun
  exact play_stop (play_call hbegun (update_exec hid hrow) hcall) hstop

theorem play_getBy {id : ℕ} {row : ProductRow} (h : Reaches catalog ok c₀ (quiet s))
    (hrow : s.product id = some row) (hnone : found s (productKey id) = none)
    (hstart : ∀ c j, ok c (.start 0 j))
    (hget : ∀ c key r, ok c (.call 0 (.redis (.get key)) r))
    (hfind : ∀ c id r, ok c (.call 0 (.findUniqueOrThrowProduct id) r)) :
    Reaches catalog ok c₀ (alone s (.getBy id) (storing (ProductModel.from id row))) := by
  have hbegun := play_start (j := .getBy id) h (fun c => hstart c _)
  rw [program_getBy] at hbegun
  have hlooked := play_call hbegun (get_exec (productKey id)) (hget _ _ _)
  rw [hnone] at hlooked
  have hfetch : Reaches catalog ok c₀ (alone s (.getBy id) (fetch id)) := hlooked
  rw [fetch_eq] at hfetch
  exact play_call hfetch (find_exec hrow) (hfind _ _ _)

def shelf : State :=
  { opened with product := Function.update opened.product 1 (some ⟨"pen", 100⟩) }

def repriced : ProductModel := ⟨1, "pen", 200⟩

theorem idle_shelf {j : Job} {k : Option ProductRow → Shopping Outcome} (id : ℕ) :
    Idle (alone shelf j (.perform (.updateProduct 1 repriced) k)) id := by
  refine ⟨rfl, ?_⟩
  rintro i text seconds ⟨j', k', hi⟩
  simp only [alone] at hi
  obtain ⟨_, hv⟩ | ⟨_, hi⟩ := pool_update hi
  · cases hv
  · cases hi

/-- A product that was changed before anyone looked at it has its new price. -/
theorem no_stale_price_repriced : ∃ c c' q r info, Reaches catalog Uncached (quiet shelf) c ∧
    Step catalog c (.call 0 q r) c' ∧ c'.pool 0 = some (.getBy 1, .succeed (.inl info)) ∧
    info.price = 200 ∧ ∃ row, c'.shared.product 1 = some row ∧ info = ⟨1, row.name, row.price⟩ := by
  have hupdated : Reaches catalog Uncached (quiet shelf) (quiet (shelf.setProduct 1 repriced)) :=
    play_update .refl rfl (by simp [shelf]) (fun _ _ => trivial) (fun _ => trivial)
      (fun id => .inr (idle_shelf id))
  have hreached : Reaches catalog Uncached (quiet shelf) (alone (shelf.setProduct 1 repriced)
      (.getBy 1) (storing (ProductModel.from 1 ⟨"pen", 200⟩))) :=
    play_getBy hupdated (by simp [State.setProduct, repriced]) rfl (fun _ _ => trivial)
      (fun _ _ _ => trivial) (fun _ _ _ => trivial)
  rw [storing_eq] at hreached
  have hstep := play_step (j := .getBy 1) (k := afterSet (ProductModel.from 1 ⟨"pen", 200⟩))
    (set_exec (s := shelf.setProduct 1 repriced) (productKey 1) ⟨ProductModel.from 1 ⟨"pen", 200⟩⟩
      ProductCacheStore.productCacheTtl)
  exact ⟨_, _, _, _, _, hreached, hstep, alone_self _ _ _, rfl,
    no_stale_price (fun _ => rfl) hreached hstep (alone_self _ _ _)⟩

def looked : State := shelf.send (.set (productKey 1) ⟨ProductModel.from 1 ⟨"pen", 100⟩⟩
  ProductCacheStore.productCacheTtl)

def changed : State := looked.setProduct 1 repriced

theorem found_changed :
    found changed (productKey 1) = some ⟨ProductModel.from 1 ⟨"pen", 100⟩⟩ := by
  simp [found, Redis.find, changed, looked, State.setProduct, State.send, Redis.run,
    ProductCacheStore.productCacheTtl]

/-- A product is looked at, then its price is changed, and the next look returns the old price. -/
theorem stale_price : ∃ s c c' i id q r info, (∀ key, s.redis.strings key = none) ∧
    Reaches catalog (fun _ _ => True) (quiet s) c ∧ Step catalog c (.call i q r) c' ∧
    c'.pool i = some (.getBy id, .succeed (.inl info)) ∧
    ¬ ∃ row, c'.shared.product id = some row ∧ info = ⟨id, row.name, row.price⟩ := by
  have hlooked : Reaches catalog (fun _ _ => True) (quiet shelf)
      (alone shelf (.getBy 1) (storing (ProductModel.from 1 ⟨"pen", 100⟩))) :=
    play_getBy .refl (by simp [shelf]) rfl (fun _ _ => trivial) (fun _ _ _ => trivial)
      (fun _ _ _ => trivial)
  rw [storing_eq] at hlooked
  have hcached : Reaches catalog (fun _ _ => True) (quiet shelf) (quiet looked) :=
    play_stop (play_call hlooked (set_exec _ _ _) trivial) (fun _ => trivial)
  have hupdated : Reaches catalog (fun _ _ => True) (quiet shelf) (quiet changed) :=
    play_update hcached rfl (by simp [shelf, looked, State.send]) (fun _ _ => trivial)
      (fun _ => trivial) trivial
  have hbegun := play_start (j := .getBy 1) hupdated (fun _ => trivial)
  rw [program_getBy] at hbegun
  have hget := get_exec (s := changed) (productKey 1)
  rw [found_changed] at hget
  refine ⟨shelf, _, _, 0, 1, _, _, ⟨1, "pen", 100⟩, fun _ => rfl, hbegun,
    play_step (j := .getBy 1) (k := afterGet 1) hget, alone_self _ _ _, ?_⟩
  rintro ⟨row, hrow, hinfo⟩
  have hnew : changed.product 1 = some ⟨"pen", 200⟩ := by simp [changed, State.setProduct, repriced]
  obtain rfl := Option.some.inj (hnew.symm.trans hrow)
  simp at hinfo

end Scenes

end EcommerceService.ProductCache
