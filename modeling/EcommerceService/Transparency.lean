import EcommerceService.Storefront
import EcommerceService.Lib.JsonText

namespace EcommerceService.Transparency

open EcommerceService.Effects EcommerceService.Errors
open EcommerceService.Decimals EcommerceService.JsonText

section Dates

def civilFromDays (days : ℤ) : ℤ × ℤ × ℤ :=
  let z := days + 719468
  let era := z / 146097
  let dayOfEra := z % 146097
  let yearOfEra := (dayOfEra - dayOfEra / 1460 + dayOfEra / 36524 - dayOfEra / 146096) / 365
  let dayOfYear := dayOfEra - (365 * yearOfEra + yearOfEra / 4 - yearOfEra / 100)
  let shifted := (5 * dayOfYear + 2) / 153
  let month := if shifted < 10 then shifted + 3 else shifted - 9
  (yearOfEra + era * 400 + (if month ≤ 2 then 1 else 0), month, dayOfYear - (153 * shifted + 2) / 5 + 1)

def pad (width : ℕ) (n : ℤ) : String :=
  let digits := Nat.repr n.natAbs
  .ofList (List.replicate (width - digits.length) '0') ++ digits

def yearText (year : ℤ) : String :=
  if 0 ≤ year ∧ year ≤ 9999 then pad 4 year else (if year < 0 then "-" else "+") ++ pad 6 year

def toISOString (ms : ℤ) : String :=
  let (year, month, day) := civilFromDays (ms / 86400000)
  let time := ms % 86400000
  yearText year ++ "-" ++ pad 2 month ++ "-" ++ pad 2 day ++ "T" ++ pad 2 (time / 3600000) ++ ":" ++
    pad 2 (time / 60000 % 60) ++ ":" ++ pad 2 (time / 1000 % 60) ++ "." ++ pad 3 (time % 1000) ++ "Z"

end Dates

section Code

/-- A value of a property: what JSON can hold, a `Date`, or nothing. -/
inductive Field where
  | json (v : Value)
  | date (ms : ℤ)
  | undefined

namespace Field

def toJson : Field → Option Value
  | json v => some v
  | date ms => some (.string (toISOString ms))
  | undefined => none

def ofMember : Option Value → Field
  | some v => json v
  | none => undefined

end Field

structure ProductRow where
  id : ℕ
  name : String
  price : Decimal
  createdAt : ℤ
  updatedAt : ℤ
deriving DecidableEq

def number (id : ℕ) : Decimal := .scaled id 0

structure ProductModel where
  id : Decimal
  name : String
  price : Decimal
  createdAt : ℤ
  updatedAt : ℤ
deriving DecidableEq

def ProductModel.from (product : ProductRow) : ProductModel :=
  ⟨number product.id, product.name, product.price, product.createdAt, product.updatedAt⟩

structure Properties where
  id : Field
  name : Field
  price : Field
  createdAt : Field
  updatedAt : Field

namespace Properties

def ofModel (model : ProductModel) : Properties :=
  ⟨.json (.number model.id), .json (.string model.name), .json (.number model.price),
    .date model.createdAt, .date model.updatedAt⟩

def ofJson (v : Value) : Properties :=
  ⟨.ofMember (v.member "id"), .ofMember (v.member "name"), .ofMember (v.member "price"),
    .ofMember (v.member "createdAt"), .ofMember (v.member "updatedAt")⟩

def toJson (properties : Properties) : Value :=
  .object ([("id", properties.id), ("name", properties.name), ("price", properties.price),
    ("createdAt", properties.createdAt), ("updatedAt", properties.updatedAt)].filterMap
      (fun property => property.2.toJson.map (fun v => (property.1, v))))

end Properties

structure ProductInfo where
  id : Field
  name : Field
  price : Field
  createdAt : Field
  updatedAt : Field

def ProductInfo.from (domain : Properties) : ProductInfo :=
  ⟨domain.id, domain.name, domain.price, domain.createdAt, domain.updatedAt⟩

inductive Call where
  | get (key : String)
  | set (key value : String) (expiry : ℕ)
  | findUniqueOrThrowProduct (id : ℕ)
deriving DecidableEq, Repr

@[reducible] def Call.Answer : Call → Type
  | .get _ => Option String
  | .set _ _ _ => Unit
  | .findUniqueOrThrowProduct _ => ProductRow

abbrev Calls (A : Type) : Type := Effect Call (fun c => Option c.Answer) Error A

def tryPromise (c : Call) : Calls c.Answer := .attempt .unknownException c

namespace RedisClient

/-- A failure counts as no value. -/
def get (keyspace key : String) : Calls (Option String) :=
  (tryPromise (.get (keyspace ++ ":" ++ key))).catchAll (fun _ => .succeed none)

def setWithExpiry (keyspace key value : String) (expiry : ℕ) : Calls Unit :=
  tryPromise (.set (keyspace ++ ":" ++ key) value expiry)

end RedisClient

def ProductRepository.getById (id : ℕ) : Calls ProductModel :=
  ((tryPromise (.findUniqueOrThrowProduct id)).map ProductModel.from).catchAll
    (fun _ => .fail (.appNotFound ErrorCodes.productNotFound))

namespace ProductCacheStore

def cache (data : ProductModel) : Calls Unit :=
  RedisClient.setWithExpiry "product" (Value.number data.id).toText
    (stringify (Properties.ofModel data).toJson) Storefront.ProductCacheStore.productCacheTtl

/-- `JSON.parse` throws on what is no JSON text, and reading a property of `null` throws. -/
def parseCachedProduct (cachedProduct : String) : Calls ProductInfo :=
  match parse cachedProduct with
  | some v => if v.isNull then .die else .succeed (ProductInfo.from (Properties.ofJson v))
  | none => .die

/-- An empty text counts as no value. -/
def findBy (productId : ℕ) : Calls (Option ProductInfo) :=
  (RedisClient.get "product" (Value.number (number productId)).toText).flatMap (fun
    | some cachedProduct =>
        if cachedProduct = "" then .succeed none else (parseCachedProduct cachedProduct).map some
    | none => .succeed none)

end ProductCacheStore

namespace ProductService

def fetchAndCacheProduct (id : ℕ) : Calls ProductInfo :=
  ((ProductRepository.getById id).tap ProductCacheStore.cache).map
    (fun model => ProductInfo.from (Properties.ofModel model))

def getBy (productId : ℕ) : Calls ProductInfo :=
  (ProductCacheStore.findBy productId).flatMap (fun
    | some cachedProduct => .succeed cachedProduct
    | none => fetchAndCacheProduct productId)

end ProductService

structure Stores where
  product : ℕ → Option ProductRow
  redis : String → Option String

/-- The commands that Redis fails on. -/
structure Outage where
  get : Bool
  set : Bool
deriving DecidableEq, Repr

def Outage.exec (outage : Outage) : (c : Call) → Stores → Option c.Answer → Stores → Prop
  | .get key, s, r, t => r = (if outage.get then none else some (s.redis key)) ∧ t = s
  | .set key value _, s, r, t =>
      if outage.set then r = none ∧ t = s
      else r = some () ∧ t = { s with redis := Function.update s.redis key (some value) }
  | .findUniqueOrThrowProduct id, s, r, t => r = s.product id ∧ t = s

end Code

section Looks

def key (id : ℕ) : String := "product" ++ ":" ++ (Value.number (number id)).toText

def text (row : ProductRow) : String :=
  stringify (Properties.ofModel (ProductModel.from row)).toJson

def directInfo (row : ProductRow) : ProductInfo :=
  ProductInfo.from (Properties.ofModel (ProductModel.from row))

def cachedInfo (row : ProductRow) : ProductInfo :=
  { directInfo row with
    createdAt := .json (.string (toISOString row.createdAt))
    updatedAt := .json (.string (toISOString row.updatedAt)) }

theorem cachedInfo_ne (row : ProductRow) : cachedInfo row ≠ directInfo row := by
  intro h
  cases congrArg ProductInfo.createdAt h

theorem text_ne_empty (row : ProductRow) : text row ≠ "" := by
  intro h
  have hchars := congrArg String.toList h
  rw [text, stringify, String.toList_ofList] at hchars
  cases hchars

variable {outage : Outage} {s t : Stores} {id : ℕ} {row : ProductRow}

theorem parseCachedProduct_text (row : ProductRow) :
    ProductCacheStore.parseCachedProduct (text row) = .succeed (cachedInfo row) := by
  simp only [ProductCacheStore.parseCachedProduct, text, parse_stringify]
  rfl

theorem runs_get {keyspace key : String} {x : Exit Error (Option String)} :
    Effect.Runs outage.exec (RedisClient.get keyspace key) s x t ↔
      x = .success (if outage.get then none else s.redis (keyspace ++ ":" ++ key)) ∧ t = s := by
  rw [RedisClient.get, tryPromise, Effect.attempt, Effect.catchAll, Effect.runs_perform]
  constructor
  · rintro ⟨r, u, ⟨hr, rfl⟩, hk⟩
    split_ifs at hr ⊢
    · cases hr
      exact Effect.runs_succeed.mp hk
    · cases hr
      exact Effect.runs_succeed.mp hk
  · rintro ⟨rfl, rfl⟩
    refine ⟨_, t, ⟨rfl, rfl⟩, ?_⟩
    split_ifs
    · exact .succeed _ _
    · exact .succeed _ _

theorem runs_getById {x : Exit Error ProductModel} (hrow : s.product id = some row) :
    Effect.Runs outage.exec (ProductRepository.getById id) s x t ↔
      x = .success (ProductModel.from row) ∧ t = s := by
  rw [ProductRepository.getById, tryPromise, Effect.attempt, Effect.map, Effect.flatMap, Effect.catchAll,
    Effect.runs_perform]
  constructor
  · rintro ⟨r, u, ⟨hr, rfl⟩, hk⟩
    cases hr.trans hrow
    exact Effect.runs_succeed.mp hk
  · rintro ⟨rfl, rfl⟩
    exact ⟨some row, t, ⟨hrow.symm, rfl⟩, .succeed _ _⟩

def Stores.cached (s : Stores) (row : ProductRow) : Stores :=
  { s with redis := Function.update s.redis (key row.id) (some (text row)) }

theorem Stores.cached_redis (s : Stores) (row : ProductRow) :
    (s.cached row).redis (key row.id) = some (text row) := by
  simp [Stores.cached]

theorem runs_cache {x : Exit Error Unit} :
    Effect.Runs outage.exec (ProductCacheStore.cache (ProductModel.from row)) s x t ↔
      (outage.set = true ∧ x = .failure .unknownException ∧ t = s) ∨
        (outage.set = false ∧ x = .success () ∧ t = s.cached row) := by
  rw [ProductCacheStore.cache, RedisClient.setWithExpiry, tryPromise, Effect.attempt, Effect.runs_perform]
  constructor
  · rintro ⟨r, u, hr, hk⟩
    cases hset : outage.set with
    | true =>
      simp only [Outage.exec, hset, if_true] at hr
      obtain ⟨rfl, rfl⟩ := hr
      exact .inl ⟨rfl, Effect.runs_fail.mp hk⟩
    | false =>
      simp only [Outage.exec, hset, Bool.false_eq_true, if_false] at hr
      obtain ⟨rfl, rfl⟩ := hr
      exact .inr ⟨rfl, Effect.runs_succeed.mp hk⟩
  · rintro (⟨hset, rfl, rfl⟩ | ⟨hset, rfl, rfl⟩)
    · exact ⟨none, t, by simp [Outage.exec, hset], .fail _ _⟩
    · refine ⟨some (), s.cached row, ?_, .succeed _ _⟩
      rw [Outage.exec, hset]
      exact ⟨rfl, rfl⟩

theorem runs_fetchAndCacheProduct {x : Exit Error ProductInfo} (hrow : s.product row.id = some row) :
    Effect.Runs outage.exec (ProductService.fetchAndCacheProduct row.id) s x t ↔
      (outage.set = true ∧ x = .failure .unknownException ∧ t = s) ∨
        (outage.set = false ∧ x = .success (directInfo row) ∧ t = s.cached row) := by
  have htap : ∀ {y u}, Effect.Runs outage.exec
      ((ProductRepository.getById row.id).tap ProductCacheStore.cache) s y u ↔
        (outage.set = true ∧ y = .failure .unknownException ∧ u = s) ∨
          (outage.set = false ∧ y = .success (ProductModel.from row) ∧ u = s.cached row) := by
    intro y u
    rw [Effect.tap, Effect.runs_flatMap]
    constructor
    · rintro ⟨z, v, hread, hcache⟩
      obtain ⟨rfl, rfl⟩ := (runs_getById hrow).mp hread
      obtain ⟨w, hw, rfl⟩ := Effect.runs_map.mp hcache
      obtain ⟨hset, rfl, rfl⟩ | ⟨hset, rfl, rfl⟩ := runs_cache.mp hw
      · exact .inl ⟨hset, rfl, rfl⟩
      · exact .inr ⟨hset, rfl, rfl⟩
    · intro h
      refine ⟨_, s, (runs_getById hrow).mpr ⟨rfl, rfl⟩, Effect.runs_map.mpr ?_⟩
      obtain ⟨hset, rfl, rfl⟩ | ⟨hset, rfl, rfl⟩ := h
      · exact ⟨_, runs_cache.mpr (.inl ⟨hset, rfl, rfl⟩), rfl⟩
      · exact ⟨_, runs_cache.mpr (.inr ⟨hset, rfl, rfl⟩), rfl⟩
  rw [ProductService.fetchAndCacheProduct, Effect.runs_map]
  constructor
  · rintro ⟨y, hy, rfl⟩
    obtain ⟨hset, rfl, rfl⟩ | ⟨hset, rfl, rfl⟩ := htap.mp hy
    · exact .inl ⟨hset, rfl, rfl⟩
    · exact .inr ⟨hset, rfl, rfl⟩
  · rintro (⟨hset, rfl, rfl⟩ | ⟨hset, rfl, rfl⟩)
    · exact ⟨_, htap.mpr (.inl ⟨hset, rfl, rfl⟩), rfl⟩
    · exact ⟨_, htap.mpr (.inr ⟨hset, rfl, rfl⟩), rfl⟩

def Misses (outage : Outage) (s : Stores) (id : ℕ) : Prop := s.redis (key id) = none ∨ outage.get = true

theorem runs_findBy {x : Exit Error (Option ProductInfo)} :
    Effect.Runs outage.exec (ProductCacheStore.findBy row.id) s x t ↔
      ∃ y, y = (if outage.get then none else s.redis (key row.id)) ∧
        Effect.Runs outage.exec (match y with
          | some cachedProduct => if cachedProduct = "" then .succeed none
              else (ProductCacheStore.parseCachedProduct cachedProduct).map some
          | none => .succeed none) s x t := by
  rw [ProductCacheStore.findBy, Effect.runs_flatMap]
  constructor
  · rintro ⟨y, u, hget, hrest⟩
    obtain ⟨rfl, rfl⟩ := runs_get.mp hget
    exact ⟨_, rfl, hrest⟩
  · rintro ⟨y, rfl, hrest⟩
    exact ⟨_, s, runs_get.mpr ⟨rfl, rfl⟩, hrest⟩

theorem runs_getBy_miss {x : Exit Error ProductInfo} (hmiss : Misses outage s row.id) :
    Effect.Runs outage.exec (ProductService.getBy row.id) s x t ↔
      Effect.Runs outage.exec (ProductService.fetchAndCacheProduct row.id) s x t := by
  have hnone : (if outage.get then none else s.redis (key row.id)) = none := by
    obtain h | h := hmiss
    · simp [h]
    · simp [h]
  rw [ProductService.getBy, Effect.runs_flatMap]
  constructor
  · rintro ⟨y, u, hfind, hrest⟩
    obtain ⟨_, rfl, hfound⟩ := runs_findBy.mp hfind
    rw [hnone] at hfound
    obtain ⟨rfl, rfl⟩ := Effect.runs_succeed.mp hfound
    exact hrest
  · intro h
    exact ⟨.success none, s, runs_findBy.mpr ⟨_, rfl, by rw [hnone]; exact .succeed _ _⟩, h⟩

theorem runs_getBy_hit {x : Exit Error ProductInfo} (hget : outage.get = false)
    (htext : s.redis (key row.id) = some (text row)) :
    Effect.Runs outage.exec (ProductService.getBy row.id) s x t ↔
      x = .success (cachedInfo row) ∧ t = s := by
  have hsome : (if outage.get then none else s.redis (key row.id)) = some (text row) := by
    simp [hget, htext]
  have hfind : ∀ {y u}, Effect.Runs outage.exec (ProductCacheStore.findBy row.id) s y u ↔
      y = .success (some (cachedInfo row)) ∧ u = s := by
    intro y u
    rw [runs_findBy, hsome]
    simp only [exists_eq_left, text_ne_empty, if_false, parseCachedProduct_text]
    exact Effect.runs_succeed
  rw [ProductService.getBy, Effect.runs_flatMap]
  constructor
  · rintro ⟨y, u, hy, hrest⟩
    obtain ⟨rfl, rfl⟩ := hfind.mp hy
    exact Effect.runs_succeed.mp hrest
  · rintro ⟨rfl, rfl⟩
    exact ⟨_, t, hfind.mpr ⟨rfl, rfl⟩, .succeed _ _⟩

end Looks

section Claim

variable {outage : Outage} {s t : Stores} {row : ProductRow}

/-- What Redis may hold of the product: nothing, or what the calls of `getBy` on the same row
have left. -/
inductive Earlier (row : ProductRow) : Option String → Prop
  | absent : Earlier row none
  | getBy {outage : Outage} {s t : Stores} {x : Exit Error ProductInfo} :
      s.product row.id = some row → Earlier row (s.redis (key row.id)) →
      Effect.Runs outage.exec (ProductService.getBy row.id) s x t → Earlier row (t.redis (key row.id))

theorem Earlier.eq {entry : Option String} (h : Earlier row entry) :
    entry = none ∨ entry = some (text row) := by
  induction h with
  | absent => exact .inl rfl
  | @getBy outage s t x hrow _ hr ih =>
    by_cases hmiss : Misses outage s row.id
    · obtain ⟨_, _, rfl⟩ | ⟨_, _, rfl⟩ :=
        (runs_fetchAndCacheProduct hrow).mp ((runs_getBy_miss hmiss).mp hr)
      · exact ih
      · exact .inr (s.cached_redis row)
    · obtain ⟨hentry, hget⟩ := not_or.mp hmiss
      obtain ⟨_, rfl⟩ := (runs_getBy_hit (Bool.eq_false_iff.mpr hget) (ih.resolve_left hentry)).mp hr
      exact ih

/-- However `getBy` ends, it ends with the product that is read directly. -/
def Transparent (outage : Outage) (s : Stores) (row : ProductRow) : Prop :=
  ∀ x t, Effect.Runs outage.exec (ProductService.getBy row.id) s x t →
    Effect.Runs outage.exec ((ProductRepository.getById row.id).map
      (fun model => ProductInfo.from (Properties.ofModel model))) s x s

theorem runs_direct {x : Exit Error ProductInfo} (hrow : s.product row.id = some row) :
    Effect.Runs outage.exec ((ProductRepository.getById row.id).map
      (fun model => ProductInfo.from (Properties.ofModel model))) s x s ↔ x = .success (directInfo row) := by
  rw [Effect.runs_map]
  constructor
  · rintro ⟨y, hy, rfl⟩
    obtain ⟨rfl, _⟩ := (runs_getById hrow).mp hy
    rfl
  · rintro rfl
    exact ⟨_, (runs_getById hrow).mpr ⟨rfl, rfl⟩, rfl⟩

/-- The cache is transparent if and only if Redis shows no text of the product and does not fail
on the new one. -/
theorem getBy_transparent_iff (hrow : s.product row.id = some row)
    (hentry : Earlier row (s.redis (key row.id))) :
    Transparent outage s row ↔ Misses outage s row.id ∧ outage.set = false := by
  constructor
  · intro h
    by_cases hmiss : Misses outage s row.id
    · refine ⟨hmiss, Bool.eq_false_iff.mpr (fun hset => ?_)⟩
      have hfails : Effect.Runs outage.exec (ProductService.getBy row.id) s
          (.failure .unknownException) s :=
        (runs_getBy_miss hmiss).mpr ((runs_fetchAndCacheProduct hrow).mpr (.inl ⟨hset, rfl, rfl⟩))
      cases (runs_direct hrow).mp (h _ _ hfails)
    · obtain ⟨hsome, hget⟩ := not_or.mp hmiss
      have hcached : Effect.Runs outage.exec (ProductService.getBy row.id) s
          (.success (cachedInfo row)) s :=
        (runs_getBy_hit (Bool.eq_false_iff.mpr hget) (hentry.eq.resolve_left hsome)).mpr ⟨rfl, rfl⟩
      have hsame := (runs_direct hrow).mp (h _ _ hcached)
      exact absurd (Exit.success.inj hsame) (cachedInfo_ne row)
  · rintro ⟨hmiss, hset⟩ x t hr
    obtain ⟨hset', _, _⟩ | ⟨_, rfl, _⟩ :=
      (runs_fetchAndCacheProduct hrow).mp ((runs_getBy_miss hmiss).mp hr)
    · rw [hset] at hset'
      cases hset'
    · exact (runs_direct hrow).mpr rfl

def lamp : ProductRow := ⟨1, "lamp", .scaled 1999 (-2), 1709210096000, 1709213696000⟩

def empty : Stores := ⟨fun id => if id = 1 then some lamp else none, fun _ => none⟩

/-- Redis fails on reading, and the product is read from its row. -/
theorem getBy_transparent_miss : Transparent ⟨true, false⟩ empty lamp :=
  (getBy_transparent_iff rfl .absent).mpr ⟨.inr rfl, rfl⟩

/-- The second look returns the dates as texts. -/
theorem getBy_not_transparent : Earlier lamp ((empty.cached lamp).redis (key lamp.id)) ∧
    ¬ Transparent ⟨false, false⟩ (empty.cached lamp) lamp ∧ ¬ Transparent ⟨false, true⟩ empty lamp := by
  have hrow : empty.product lamp.id = some lamp := rfl
  have hfirst : Effect.Runs (Outage.exec ⟨false, false⟩) (ProductService.getBy lamp.id) empty
      (.success (directInfo lamp)) (empty.cached lamp) :=
    (runs_getBy_miss (.inl rfl)).mpr ((runs_fetchAndCacheProduct hrow).mpr (.inr ⟨rfl, rfl, rfl⟩))
  refine ⟨.getBy hrow .absent hfirst, fun h => ?_, fun h => ?_⟩
  · have hrow' : (empty.cached lamp).product lamp.id = some lamp := rfl
    have hcached : Effect.Runs (Outage.exec ⟨false, false⟩) (ProductService.getBy lamp.id)
        (empty.cached lamp) (.success (cachedInfo lamp)) (empty.cached lamp) :=
      (runs_getBy_hit rfl (empty.cached_redis lamp)).mpr ⟨rfl, rfl⟩
    have hsame := (runs_direct hrow').mp (h _ _ hcached)
    exact cachedInfo_ne lamp (Exit.success.inj hsame)
  · have hfails : Effect.Runs (Outage.exec ⟨false, true⟩) (ProductService.getBy lamp.id) empty
        (.failure .unknownException) empty :=
      (runs_getBy_miss (.inl rfl)).mpr ((runs_fetchAndCacheProduct hrow).mpr (.inl ⟨rfl, rfl, rfl⟩))
    cases (runs_direct hrow).mp (h _ _ hfails)

structure ProductInfo.Shows (info : ProductInfo) (model : Storefront.ProductInfo) : Prop where
  id : ∃ d, info.id = .json (.number d) ∧ d.toRat = model.id
  name : info.name = .json (.string model.name)
  price : ∃ d, info.price = .json (.number d) ∧ d.toRat = model.price

/-- But for the dates, which the storefront's model leaves out, a look shows the row, however
Redis answers. -/
theorem getBy_shows {info : ProductInfo} (hrow : s.product row.id = some row)
    (hentry : Earlier row (s.redis (key row.id)))
    (hr : Effect.Runs outage.exec (ProductService.getBy row.id) s (.success info) t) :
    info.Shows (Storefront.ProductInfo.from
      (Storefront.ProductModel.from row.id ⟨row.name, row.price.toRat⟩)) := by
  have hid : (number row.id).toRat = row.id := by simp [number]
  by_cases hmiss : Misses outage s row.id
  · obtain ⟨_, hfails, _⟩ | ⟨_, hinfo, _⟩ :=
      (runs_fetchAndCacheProduct hrow).mp ((runs_getBy_miss hmiss).mp hr)
    · cases hfails
    · cases hinfo
      exact ⟨⟨_, rfl, hid⟩, rfl, _, rfl, rfl⟩
  · obtain ⟨hsome, hget⟩ := not_or.mp hmiss
    obtain ⟨hinfo, _⟩ :=
      (runs_getBy_hit (Bool.eq_false_iff.mpr hget) (hentry.eq.resolve_left hsome)).mp hr
    cases hinfo
    exact ⟨⟨_, rfl, hid⟩, rfl, _, rfl, rfl⟩

end Claim

end EcommerceService.Transparency
