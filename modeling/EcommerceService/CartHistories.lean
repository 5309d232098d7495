import Mathlib.Data.List.Nodup
import EcommerceService.Carts
import EcommerceService.Lib.Linearize

namespace EcommerceService.CartHistories

open EcommerceService.Effects EcommerceService.Errors EcommerceService.Models
open EcommerceService.Pool EcommerceService.Linearize EcommerceService.Carts
open EcommerceService.Cache (ProductModel)

section Object

abbrev CartMap : Type := ℕ → ℕ → Option ℤ

def CartMap.set (m : CartMap) (userId productId : ℕ) (quantity : Option ℤ) : CartMap :=
  Function.update m userId (Function.update (m userId) productId quantity)

/-- The carts that the tables hold. -/
def items (s : Tables) : CartMap := fun userId productId =>
  ((s.cart.find? (fun cart => cart.userId = userId)).bind (fun cart =>
    s.cartItem.find? (fun item => item.cartId = cart.id ∧ item.productId = productId))).map
    (·.quantity)

/-- The unique keys, and no item without its cart. -/
structure Sound (s : Tables) : Prop where
  carts : (s.cart.map CartRow.id).Nodup
  owners : (s.cart.map CartRow.userId).Nodup
  keys : (s.cartItem.map (fun item => (item.cartId, item.productId))).Nodup
  belongs : ∀ item ∈ s.cartItem, ∃ cart ∈ s.cart, cart.id = item.cartId

def Owns (s : Tables) (cartId userId : ℕ) : Prop :=
  ∃ cart ∈ s.cart, cart.id = cartId ∧ cart.userId = userId

def Keeps (s t : Tables) : Prop := ∀ cartId userId, Owns s cartId userId → Owns t cartId userId

variable {s t : Tables} {cartId userId productId : ℕ} {quantity : ℤ}

theorem Sound.cart_eq (hs : Sound s) {cart cart' : CartRow} (hm : cart ∈ s.cart)
    (hm' : cart' ∈ s.cart) (hid : cart.id = cart'.id) : cart = cart' :=
  List.inj_on_of_nodup_map hs.carts hm hm' hid

theorem Sound.owner_eq (hs : Sound s) {cart cart' : CartRow} (hm : cart ∈ s.cart)
    (hm' : cart' ∈ s.cart) (huser : cart.userId = cart'.userId) : cart = cart' :=
  List.inj_on_of_nodup_map hs.owners hm hm' huser

theorem Sound.item_eq (hs : Sound s) {item item' : CartItemRow} (hm : item ∈ s.cartItem)
    (hm' : item' ∈ s.cartItem) (hcart : item.cartId = item'.cartId)
    (hproduct : item.productId = item'.productId) : item = item' :=
  List.inj_on_of_nodup_map hs.keys hm hm' (Prod.ext hcart hproduct)

theorem items_eq_some (hs : Sound s) (ho : Owns s cartId userId) :
    items s userId productId = some quantity ↔ ∃ item ∈ s.cartItem,
      item.cartId = cartId ∧ item.productId = productId ∧ item.quantity = quantity := by
  obtain ⟨cart, hm, rfl, rfl⟩ := ho
  have hfind : s.cart.find? (fun c => c.userId = cart.userId) = some cart := by
    cases hcase : s.cart.find? (fun c => c.userId = cart.userId) with
    | none => simpa using List.find?_eq_none.mp hcase cart hm
    | some cart' =>
      have huser : cart'.userId = cart.userId := by simpa using List.find?_some hcase
      rw [hs.owner_eq (List.mem_of_find?_eq_some hcase) hm huser]
  simp only [items, hfind, Option.bind_some, Option.map_eq_some_iff]
  constructor
  · rintro ⟨item, hitem, hq⟩
    have hkey : item.cartId = cart.id ∧ item.productId = productId := by
      simpa using List.find?_some hitem
    exact ⟨item, List.mem_of_find?_eq_some hitem, hkey.1, hkey.2, hq⟩
  · rintro ⟨item, hitem, hcart, hproduct, hq⟩
    refine ⟨item, ?_, hq⟩
    cases hcase : s.cartItem.find? (fun i => i.cartId = cart.id ∧ i.productId = productId) with
    | none => simpa [hcart, hproduct] using List.find?_eq_none.mp hcase item hitem
    | some item' =>
      have hkey : item'.cartId = cart.id ∧ item'.productId = productId := by
        simpa using List.find?_some hcase
      rw [hs.item_eq (List.mem_of_find?_eq_some hcase) hitem (hkey.1.trans hcart.symm)
        (hkey.2.trans hproduct.symm)]

theorem items_eq_none (hnone : ∀ cart ∈ s.cart, cart.userId ≠ userId) :
    items s userId productId = none := by
  have hfind : s.cart.find? (fun c => c.userId = userId) = none := by
    simpa using hnone
  simp [items, hfind]

theorem items_congr (hs : Sound s) (ht : Sound t)
    (howns : ∀ cartId userId, Owns s cartId userId → Owns t cartId userId)
    (hnew : ∀ cartId userId, Owns t cartId userId → Owns s cartId userId ∨
      ∀ item ∈ t.cartItem, item.cartId ≠ cartId)
    (hitems : t.cartItem = s.cartItem) : items t = items s := by
  funext userId productId
  by_cases hcart : ∃ cartId, Owns s cartId userId
  · obtain ⟨cartId, ho⟩ := hcart
    ext quantity
    rw [items_eq_some hs ho, items_eq_some ht (howns _ _ ho), hitems]
  · have hnone : ∀ cart ∈ s.cart, cart.userId ≠ userId :=
      fun cart hm he => hcart ⟨cart.id, cart, hm, rfl, he⟩
    rw [items_eq_none hnone]
    by_cases hcart' : ∃ cartId, Owns t cartId userId
    · obtain ⟨cartId, ho⟩ := hcart'
      refine Option.eq_none_iff_forall_ne_some.mpr (fun quantity hq => ?_)
      obtain ⟨item, hm, hid, _⟩ := (items_eq_some ht ho).mp hq
      exact (hnew cartId userId ho).elim (fun h => hcart ⟨cartId, h⟩) (fun h => h item hm hid)
    · exact items_eq_none (fun cart hm he => hcart' ⟨cart.id, cart, hm, rfl, he⟩)

end Object

section Calls

variable {s t : Tables} {cartId userId productId : ℕ} {quantity : ℤ}

def Writes : Call → Prop
  | .createCartItem _ _ _ => True
  | .deleteCartItem _ _ => True
  | _ => False

theorem owns_append {row : CartRow} :
    Owns { s with cart := s.cart ++ [row] } cartId userId ↔
      Owns s cartId userId ∨ (row.id = cartId ∧ row.userId = userId) := by
  simp [Owns, or_and_right, exists_or]

theorem owns_update {row old : CartRow} (hs : Sound s) (hm : old ∈ s.cart)
    (hrow : row = { old with updatedAt := row.updatedAt }) :
    Owns { s with cart := s.cart.map (fun cart => if cart.id = old.id then row else cart) }
      cartId userId ↔ Owns s cartId userId := by
  have hid : row.id = old.id := by rw [hrow]
  have huser : row.userId = old.userId := by rw [hrow]
  have hsame : ∀ cart ∈ s.cart, (if cart.id = old.id then row else cart).id = cart.id ∧
      (if cart.id = old.id then row else cart).userId = cart.userId := by
    intro cart hcart
    split
    · rename_i he
      rw [hs.cart_eq hcart hm he]
      exact ⟨hid, huser⟩
    · exact ⟨rfl, rfl⟩
  simp only [Owns, List.mem_map, exists_exists_and_eq_and]
  constructor
  · rintro ⟨cart, hcart, rfl, rfl⟩
    exact ⟨cart, hcart, (hsame cart hcart).1.symm, (hsame cart hcart).2.symm⟩
  · rintro ⟨cart, hcart, rfl, rfl⟩
    exact ⟨cart, hcart, (hsame cart hcart).1, (hsame cart hcart).2⟩

theorem Sound.createCart (hs : Sound s) {row : CartRow}
    (h : Call.Allows (.createCart userId) s row) :
    Sound (Call.after (.createCart userId) s row) ∧ Keeps s (Call.after (.createCart userId) s row) ∧
      items (Call.after (.createCart userId) s row) = items s := by
  obtain ⟨hfree, hnew, huser⟩ := h
  have ht : Sound (Call.after (.createCart userId) s row) := by
    refine ⟨?_, ?_, hs.keys, fun item hm => ?_⟩
    · simpa [Call.after, List.nodup_append, hs.carts] using hnew
    · simpa [Call.after, List.nodup_append, hs.owners, huser] using hfree
    · obtain ⟨cart, hcart, hid⟩ := hs.belongs item hm
      exact ⟨cart, List.mem_append_left _ hcart, hid⟩
  have hkeeps : Keeps s (Call.after (.createCart userId) s row) :=
    fun _ _ ho => owns_append.mpr (.inl ho)
  refine ⟨ht, hkeeps, items_congr hs ht hkeeps (fun cartId' userId' ho => ?_) rfl⟩
  obtain ho | ⟨hid, _⟩ := owns_append.mp ho
  · exact .inl ho
  · refine .inr (fun item hm he => ?_)
    obtain ⟨cart, hcart, hcartId⟩ := hs.belongs item hm
    exact hnew cart hcart (hcartId.trans (he.trans hid.symm))

theorem Sound.updateCart (hs : Sound s) {row : CartRow}
    (h : Call.Allows (.updateCart cartId) s row) :
    Sound (Call.after (.updateCart cartId) s row) ∧ Keeps s (Call.after (.updateCart cartId) s row) ∧
      items (Call.after (.updateCart cartId) s row) = items s := by
  obtain ⟨_, old, hm, rfl, hrow⟩ := h
  have howns : ∀ cartId' userId', Owns (Call.after (.updateCart old.id) s row) cartId' userId' ↔
      Owns s cartId' userId' := fun _ _ => owns_update hs hm hrow
  have hsame : ∀ f : CartRow → ℕ, f row = f old →
      (s.cart.map (fun cart => if cart.id = old.id then row else cart)).map f = s.cart.map f := by
    intro f hf
    rw [List.map_map]
    refine List.map_congr_left (fun cart hcart => ?_)
    simp only [Function.comp_apply]
    split
    · rename_i he
      rw [hf, hs.cart_eq hcart hm he]
    · rfl
  have ht : Sound (Call.after (.updateCart old.id) s row) := by
    refine ⟨?_, ?_, hs.keys, fun item hitem => ?_⟩
    · exact (hsame CartRow.id (by rw [hrow])).symm ▸ hs.carts
    · exact (hsame CartRow.userId (by rw [hrow])).symm ▸ hs.owners
    · obtain ⟨cart, hcart, hid⟩ := hs.belongs item hitem
      obtain ⟨cart', hcart', hid', _⟩ := (howns cart.id cart.userId).mpr ⟨cart, hcart, rfl, rfl⟩
      exact ⟨cart', hcart', hid'.trans hid⟩
  exact ⟨ht, fun _ _ ho => (howns _ _).mpr ho,
    items_congr hs ht (fun _ _ ho => (howns _ _).mpr ho) (fun _ _ ho => .inl ((howns _ _).mp ho)) rfl⟩

theorem Sound.exec {rejects : Call → Prop} {c : Call} {r : Option c.Answer} (hs : Sound s)
    (hc : ¬ Writes c) (h : exec rejects c s r t) : Sound t ∧ Keeps s t ∧ items t = items s := by
  cases r with
  | none =>
    obtain ⟨_, rfl⟩ := h
    exact ⟨hs, fun _ _ ho => ho, rfl⟩
  | some v =>
    obtain ⟨hallows, rfl⟩ := h
    cases c with
    | createCart userId => exact hs.createCart hallows
    | updateCart id => exact hs.updateCart hallows
    | createCartItem cartId productId quantity => exact absurd trivial hc
    | deleteCartItem cartId productId => exact absurd trivial hc
    | findUniqueOrThrowUser id => exact ⟨hs, fun _ _ ho => ho, rfl⟩
    | findUniqueOrThrowCart id => exact ⟨hs, fun _ _ ho => ho, rfl⟩
    | findUniqueOrThrowCartOf userId => exact ⟨hs, fun _ _ ho => ho, rfl⟩
    | findManyCartItems cartId => exact ⟨hs, fun _ _ ho => ho, rfl⟩
    | findUniqueOrThrowProduct id => exact ⟨hs, fun _ _ ho => ho, rfl⟩
    | findUniqueOrThrowProductStock productId => exact ⟨hs, fun _ _ ho => ho, rfl⟩

theorem items_set (hs : Sound s) (ht : Sound t) (ho : Owns s cartId userId) (hcart : t.cart = s.cart)
    {o : Option ℤ} (hset : items t userId productId = o)
    (hother : ∀ item, ¬ (item.cartId = cartId ∧ item.productId = productId) →
      (item ∈ t.cartItem ↔ item ∈ s.cartItem)) :
    items t = (items s).set userId productId o := by
  have howns : ∀ {cartId' userId'}, Owns t cartId' userId' ↔ Owns s cartId' userId' := by
    intro cartId' userId'
    rw [Owns, hcart, Owns]
  funext userId' productId'
  by_cases hkey : userId' = userId ∧ productId' = productId
  · obtain ⟨rfl, rfl⟩ := hkey
    simpa [CartMap.set] using hset
  · have hright : (items s).set userId productId o userId' productId' = items s userId' productId' := by
      by_cases huser : userId' = userId
      · subst huser
        have hproduct : productId' ≠ productId := fun he => hkey ⟨rfl, he⟩
        simp [CartMap.set, Function.update_of_ne hproduct]
      · simp [CartMap.set, Function.update_of_ne huser]
    rw [hright]
    by_cases hhas : ∃ cartId', Owns s cartId' userId'
    · obtain ⟨cartId', ho'⟩ := hhas
      ext quantity
      rw [items_eq_some ht (howns.mpr ho'), items_eq_some hs ho']
      have hne : ∀ item : CartItemRow, item.cartId = cartId' → item.productId = productId' →
          ¬ (item.cartId = cartId ∧ item.productId = productId) := by
        rintro item rfl rfl ⟨hid, hproduct⟩
        obtain ⟨cart, hm, hcartId, huser⟩ := ho
        obtain ⟨cart', hm', hcartId', huser'⟩ := ho'
        have he := hs.cart_eq hm hm' (hcartId.trans (hid.symm.trans hcartId'.symm))
        exact hkey ⟨huser'.symm.trans (he ▸ huser), hproduct⟩
      constructor
      · rintro ⟨item, hm, hid, hproduct, hq⟩
        exact ⟨item, (hother item (hne item hid hproduct)).mp hm, hid, hproduct, hq⟩
      · rintro ⟨item, hm, hid, hproduct, hq⟩
        exact ⟨item, (hother item (hne item hid hproduct)).mpr hm, hid, hproduct, hq⟩
    · rw [items_eq_none (fun cart hm he => hhas ⟨cart.id, cart, hm, rfl, he⟩),
        items_eq_none (fun cart hm he => hhas ⟨cart.id, cart, hcart ▸ hm, rfl, he⟩)]

theorem Sound.createCartItem (hs : Sound s) (ho : Owns s cartId userId) {row : CartItemRow}
    (h : Call.Allows (.createCartItem cartId productId quantity) s row) :
    Sound (Call.after (.createCartItem cartId productId quantity) s row) ∧
      items s userId productId = none ∧
      items (Call.after (.createCartItem cartId productId quantity) s row) =
        (items s).set userId productId (some quantity) := by
  obtain ⟨hfree, _, hcart, hproduct, hq⟩ := h
  have ht : Sound (Call.after (.createCartItem cartId productId quantity) s row) := by
    refine ⟨hs.carts, hs.owners, ?_, fun item hm => ?_⟩
    · simp only [Call.after, List.map_append, List.map_cons, List.map_nil]
      refine List.Nodup.append hs.keys (List.nodup_singleton _) ?_
      rintro key hm hkey
      obtain ⟨old, hold, rfl⟩ := List.mem_map.mp hm
      obtain ⟨hid, hp⟩ := Prod.mk.inj (List.mem_singleton.mp hkey)
      exact hfree old hold (hid.trans hcart) (hp.trans hproduct)
    · obtain hm | hm := List.mem_append.mp hm
      · exact hs.belongs item hm
      · cases List.mem_singleton.mp hm
        obtain ⟨cart, hcart', hid, _⟩ := ho
        exact ⟨cart, hcart', hid.trans hcart.symm⟩
  refine ⟨ht, ?_, items_set hs ht ho rfl ?_ (fun item hkey => ?_)⟩
  · refine Option.eq_none_iff_forall_ne_some.mpr (fun q hq => ?_)
    obtain ⟨old, hold, hid, hp, _⟩ := (items_eq_some hs ho).mp hq
    exact hfree old hold hid hp
  · exact (items_eq_some ht ho).mpr
      ⟨row, List.mem_append_right _ List.mem_cons_self, hcart, hproduct, hq⟩
  · simp only [Call.after, List.mem_append, List.mem_singleton, or_iff_left_iff_imp]
    rintro rfl
    exact absurd ⟨hcart, hproduct⟩ hkey

theorem Sound.deleteCartItem (hs : Sound s) (ho : Owns s cartId userId)
    (h : Call.Allows (.deleteCartItem cartId productId) s ()) :
    Sound (Call.after (.deleteCartItem cartId productId) s ()) ∧
      items s userId productId ≠ none ∧
      items (Call.after (.deleteCartItem cartId productId) s ()) =
        (items s).set userId productId none := by
  obtain ⟨old, hold, hid, hproduct⟩ := h
  have ht : Sound (Call.after (.deleteCartItem cartId productId) s ()) := by
    refine ⟨hs.carts, hs.owners, ?_, fun item hm => hs.belongs item (List.mem_filter.mp hm).1⟩
    exact hs.keys.sublist (List.Sublist.map _ List.filter_sublist)
  refine ⟨ht, fun hnone => ?_, items_set hs ht ho rfl ?_ (fun item hkey => ?_)⟩
  · have hsome := (items_eq_some hs ho).mpr ⟨old, hold, hid, hproduct, rfl⟩
    cases hnone.symm.trans hsome
  · refine Option.eq_none_iff_forall_ne_some.mpr (fun q hq => ?_)
    obtain ⟨item, hm, hid', hp, _⟩ := (items_eq_some ht ho).mp hq
    simpa [Call.after, hid', hp] using (List.mem_filter.mp hm).2
  · simp only [Call.after, List.mem_filter, decide_eq_true_eq, and_iff_left_iff_imp]
    exact fun _ => hkey

end Calls

section Requests

inductive Request where
  | create (userId : ℕ)
  | getCartBy (userId : ℕ)
  | addCartItem (userId productId : ℕ) (quantity : ℤ)
  | removeCartItem (userId productId : ℕ)
deriving DecidableEq, Repr

inductive Reply where
  | created (info : CartInfo)
  | cart (info : GetCartByInfo)
  | item (info : CartItemInfo)
  | removed
deriving DecidableEq, Repr

namespace Request

def userId : Request → ℕ
  | create userId => userId
  | getCartBy userId => userId
  | addCartItem userId _ _ => userId
  | removeCartItem userId _ => userId

def program : Request → Statements Reply
  | create userId => (CartService.create userId).map .created
  | getCartBy userId => (OrderFacade.getCartBy userId).map .cart
  | addCartItem userId productId quantity =>
      (OrderFacade.addCartItem userId productId quantity).map .item
  | removeCartItem userId productId => (OrderFacade.removeCartItem userId productId).map (fun _ => .removed)

end Request

def Lists (items : List CartItemInfo) (m : ℕ → Option ℤ) : Prop :=
  (items.map (·.productId)).Nodup ∧ ∀ productId quantity, m productId = some quantity ↔
    ∃ item ∈ items, item.productId = productId ∧ item.quantity = quantity

/-- What a request does to the cart of its user, as one step: an item is added where there was
none, or taken out where there was one. A request that fails changes nothing, but for the
removal that fails with `UnknownException`, which has taken the item out. -/
def ownSpec : Spec Request (ℕ → Option ℤ) Error Reply
  | .create _, m, .success (.created _), m' => m' = m
  | .getCartBy userId, m, .success (.cart info), m' =>
      m' = m ∧ info.cart.userId = userId ∧ Lists info.cartItems m
  | .addCartItem _ productId quantity, m, .success (.item info), m' =>
      m productId = none ∧ m' = Function.update m productId (some quantity) ∧
        info.productId = productId ∧ info.quantity = quantity
  | .removeCartItem _ productId, m, .success .removed, m' =>
      m productId ≠ none ∧ m' = Function.update m productId none
  | .removeCartItem _ productId, m, .failure .unknownException, m' =>
      m productId ≠ none ∧ m' = Function.update m productId none
  | _, m, .failure _, m' => m' = m
  | _, _, _, _ => False

/-- The other users' carts stay. -/
def spec : Spec Request CartMap Error Reply := fun request m x m' =>
  ownSpec request (m request.userId) x (m' request.userId) ∧
    ∀ userId, userId ≠ request.userId → m' userId = m userId

theorem spec_same {request : Request} {m : CartMap} {x : Exit Error Reply}
    (h : ownSpec request (m request.userId) x (m request.userId)) : spec request m x m :=
  ⟨h, fun _ _ => rfl⟩

theorem spec_set {request : Request} {m : CartMap} {x : Exit Error Reply} {productId : ℕ}
    {o : Option ℤ} (h : ownSpec request (m request.userId) x
      (Function.update (m request.userId) productId o)) :
    spec request m x (m.set request.userId productId o) := by
  refine ⟨?_, fun userId hne => Function.update_of_ne hne _ _⟩
  rw [CartMap.set, Function.update_self]
  exact h

/-- Any number of requests at once, any statement of which may fail. Around them users sign
up, and products and stocks change. -/
def system (Pid : Type) : System Pid Request Call (fun c => Option c.Answer) Error Reply Tables where
  exec := exec (fun _ => True)
  program := Request.program
  start := fun _ _ s s' => s' = s
  env := fun s s' => s'.cart = s.cart ∧ s'.cartItem = s.cartItem

abbrev Operation {A : Type} (allowed : CartMap → CartMap → Prop)
    (post : Phase CartMap → Exit Error A → Tables → Prop) :
    Phase CartMap → Statements A → Tables → Prop :=
  Atomic (exec (fun _ => True)) Sound Keeps items allowed post

variable {A B : Type} {allowed : CartMap → CartMap → Prop} {ph : Phase CartMap} {s : Tables}
  {userId productId cartId : ℕ} {quantity : ℤ}

/-- A part of a request that does not take effect: it ends with a value for which `P` holds,
or fails with an error for which `Q` holds. -/
def Stays (Q : Error → Prop) (P : A → Tables → Prop) (ph : Phase CartMap) :
    Phase CartMap → Exit Error A → Tables → Prop
  | ph', .success a, t => ph' = ph ∧ P a t
  | ph', .failure e, _ => ph' = ph ∧ Q e
  | _, .defect, _ => False

theorem Keeps.refl (s : Tables) : Keeps s s := fun _ _ ho => ho

theorem Keeps.trans (s t u : Tables) (h : Keeps s t) (h' : Keeps t u) : Keeps s u :=
  fun _ _ ho => h' _ _ (h _ _ ho)

theorem operation_kept {post : Phase CartMap → Exit Error A → Tables → Prop} {p : Statements A}
    (h : Operation allowed post ph p s) :
    Operation allowed (fun ph' x t => Keeps s t ∧ post ph' x t) ph p s :=
  Atomic.kept Keeps.refl Keeps.trans h

theorem Stays.flatMap {Q : Error → Prop} {P : A → Tables → Prop} {f : A → Statements B}
    {p : Statements A} {post : Phase CartMap → Exit Error B → Tables → Prop}
    (h : Operation allowed (Stays Q P ph) ph p s)
    (hf : ∀ a t, Keeps s t → P a t → Operation allowed post ph (f a) t)
    (he : ∀ e t, Q e → post ph (.failure e) t) : Operation allowed post ph (p.flatMap f) s := by
  refine Atomic.flatMap (Atomic.mono (operation_kept h) (fun ph' y t hy => ?_))
  obtain ⟨hk, hy⟩ := hy
  cases y with
  | success a =>
    obtain ⟨rfl, ha⟩ := hy
    exact hf a t hk ha
  | failure e =>
    obtain ⟨rfl, hq⟩ := hy
    exact he e t hq
  | defect => cases hy

theorem Stays.map {Q : Error → Prop} {P : A → Tables → Prop} {R : B → Tables → Prop} {f : A → B}
    {p : Statements A} (h : Operation allowed (Stays Q P ph) ph p s)
    (hf : ∀ a t, P a t → R (f a) t) : Operation allowed (Stays Q R ph) ph (p.map f) s :=
  Stays.flatMap h (fun a t _ ha => ⟨rfl, hf a t ha⟩) (fun _ _ hq => ⟨rfl, hq⟩)

theorem stays_tryPromise {c : Call} {P : c.Answer → Tables → Prop} (hc : ¬ Writes c)
    (h : ∀ s₁ v, Keeps s s₁ → Sound s₁ → c.Allows s₁ v → P v (c.after s₁ v)) :
    Operation allowed (Stays (· = .unknownException) P ph) ph (tryPromise c) s := by
  intro s₁ hk hs r s₂ hr
  obtain ⟨hs₂, hk₂, hitems⟩ := hs.exec hc hr
  refine ⟨hs₂, hk₂, ph, .inl ⟨rfl, hitems⟩, ?_⟩
  cases r with
  | none => exact ⟨rfl, rfl⟩
  | some v =>
    obtain ⟨hallows, rfl⟩ := hr
    exact ⟨rfl, h s₁ v hk hs hallows⟩

theorem stays_orFail {c : Call} {f : c.Answer → A} {e : Error} {P : A → Tables → Prop}
    (hc : ¬ Writes c)
    (h : ∀ s₁ v, Keeps s s₁ → Sound s₁ → c.Allows s₁ v → P (f v) (c.after s₁ v)) :
    Operation allowed (Stays (· = e) P ph) ph
      (((tryPromise c).map f).catchAll (fun _ => .fail e)) s := by
  refine Atomic.catchAll (Atomic.mono (Stays.map
    (stays_tryPromise (P := fun v t => P (f v) t) hc h) (fun _ _ ha => ha)) (fun ph' y t hy => ?_))
  cases y with
  | success a => exact hy
  | failure e' => exact ⟨hy.1, rfl⟩
  | defect => exact hy

theorem Stays.weaken {Q Q' : Error → Prop} {P P' : A → Tables → Prop} {p : Statements A}
    (h : Operation allowed (Stays Q P ph) ph p s) (hQ : ∀ e, Q e → Q' e)
    (hP : ∀ a t, P a t → P' a t) : Operation allowed (Stays Q' P' ph) ph p s := by
  refine Atomic.mono h (fun ph' y t hy => ?_)
  cases y with
  | success a => exact ⟨hy.1, hP a t hy.2⟩
  | failure e => exact ⟨hy.1, hQ e hy.2⟩
  | defect => exact hy

theorem stays_getById : Operation allowed
    (Stays (· = .appNotFound ErrorCodes.userNotFound) (fun user _ => user.id = userId) ph) ph
    (UserRepository.getById userId) s :=
  stays_orFail not_false (fun _ _ _ _ h => h.2)

theorem stays_getByUserId : Operation allowed
    (Stays (· = .appNotFound ErrorCodes.cartNotFound) (fun cart t => Owns t cart.id userId) ph) ph
    (CartRepository.getByUserId userId) s :=
  stays_orFail not_false (fun _ v _ _ h => ⟨v, h.1, rfl, h.2⟩)

theorem stays_getCart : Operation allowed
    (Stays (· = .appNotFound ErrorCodes.cartNotFound) (fun cart _ => cart.id = cartId) ph) ph
    (CartRepository.getById cartId) s :=
  stays_orFail not_false (fun _ _ _ _ h => h.2)

theorem stays_getProduct : Operation allowed
    (Stays (· = .appNotFound ErrorCodes.productNotFound) (fun product _ => product.id = productId) ph)
    ph (ProductRepository.getById productId) s :=
  stays_orFail not_false (fun _ _ _ _ _ => rfl)

theorem stays_getStock : Operation allowed
    (Stays (· = .appNotFound ErrorCodes.productNotFound) (fun _ _ => True) ph) ph
    (ProductStockRepository.getById productId) s :=
  stays_orFail not_false (fun _ _ _ _ _ => trivial)

theorem stays_update : Operation allowed (Stays (· = .unknownException) (fun _ _ => True) ph) ph
    (CartRepository.update cartId) s :=
  Stays.map (stays_tryPromise (P := fun _ _ => True) not_false (fun _ _ _ _ _ => trivial))
    (fun _ _ h => h)

def Found (userId : ℕ) (cart : CartModel) (t : Tables) : Prop :=
  cart.userId = userId ∧ Owns t cart.id userId

theorem stays_cartOf : Operation allowed (Stays (fun e => e.isApplication = true) (Found userId) ph) ph
    ((UserRepository.getById userId).flatMap (fun user => CartRepository.getByUserId user.id)) s := by
  refine Stays.flatMap stays_getById (fun user t _ hid => ?_) (fun e _ he => ⟨rfl, he ▸ rfl⟩)
  subst hid
  exact Stays.weaken (P := Found user.id) (stays_orFail not_false
    (fun _ v _ _ h => ⟨h.2, v, h.1, rfl, h.2⟩)) (fun e he => he ▸ rfl) (fun _ _ h => h)

theorem stays_getCartBy : Operation allowed
    (Stays (fun _ => True) (fun read t => Owns t read.cart.id userId) ph) ph
    (CartService.getCartBy userId) s := by
  refine Stays.map (P := fun read t => Found userId read.1 t) (Stays.flatMap stays_cartOf
    (fun cart t _ hcart => ?_) (fun _ _ _ => ⟨rfl, trivial⟩)) (fun _ _ h => h.2)
  have hread : Operation allowed (Stays (· = .unknownException) (fun _ u => Found userId cart u) ph)
      ph (tryPromise (.findManyCartItems cart.id)) t :=
    stays_tryPromise not_false (fun s₁ _ hk _ _ => ⟨hcart.1, hk _ _ hcart.2⟩)
  exact Stays.weaken (Stays.map (R := fun read u => Found userId read.1 u)
    (Stays.map hread (fun _ _ h => h)) (fun _ _ h => h)) (fun _ _ => trivial) (fun _ _ h => h)

section Reads

theorem lists_of_perm (hs : Sound s) (ho : Owns s cartId userId) {rows : List CartItemRow}
    (h : Call.Allows (.findManyCartItems cartId) s rows) :
    Lists ((CartItemModel.fromList rows).map CartItemInfo.from) (items s userId) := by
  have hmem : ∀ row, row ∈ rows ↔ row ∈ s.cartItem ∧ row.cartId = cartId := by
    intro row
    simpa using h.mem_iff (a := row)
  refine ⟨?_, fun productId quantity => ?_⟩
  · have hkeys : (rows.map (fun item => (item.cartId, item.productId))).Nodup :=
      (h.map _).nodup_iff.mpr (hs.keys.sublist (List.Sublist.map _ List.filter_sublist))
    have hproducts : (rows.map (·.productId)).Nodup := by
      refine (List.nodup_map_iff_inj_on hkeys.of_map).mpr (fun row hm row' hm' hp => ?_)
      have hcart := ((hmem row).mp hm).2.trans ((hmem row').mp hm').2.symm
      exact List.inj_on_of_nodup_map hkeys hm hm' (Prod.ext hcart hp)
    simpa [CartItemModel.fromList, Function.comp_def, CartItemInfo.from, CartItemModel.from] using
      hproducts
  · rw [items_eq_some hs ho]
    simp only [CartItemModel.fromList, List.map_map, List.mem_map]
    constructor
    · rintro ⟨row, hm, hid, hp, hq⟩
      exact ⟨_, ⟨row, (hmem row).mpr ⟨hm, hid⟩, rfl⟩, hp, hq⟩
    · rintro ⟨_, ⟨row, hm, rfl⟩, hp, hq⟩
      exact ⟨row, ((hmem row).mp hm).1, ((hmem row).mp hm).2, hp, hq⟩

end Reads

abbrev Takes (request : Request) (f : A → Reply) : Statements A → Tables → Prop :=
  Operation (fun m m' => ∃ x, spec request m x m')
    (fun ph x _ => Answers (spec request) ph (x.map f)) .pending

theorem takes_create : Takes (.create userId) id (Request.create userId).program s := by
  have hcreate : ∀ (user : SignUp.UserModel) (t : Tables), Operation
      (fun m m' => ∃ x, spec (.create userId) m x m') (Stays (fun _ => True) (fun _ _ => True) .pending) .pending (CartRepository.create user.id) t :=
    fun user t => Stays.weaken (Stays.map
      (stays_tryPromise (P := fun _ _ => True) not_false (fun _ _ _ _ _ => trivial))
      (fun _ _ h => h)) (fun _ _ => trivial) (fun _ _ h => h)
  refine Atomic.mono (Stays.map (P := fun _ _ => True) (R := fun reply _ => ∃ info, reply = .created info)
    (Stays.map (Stays.flatMap stays_getById (fun user t _ _ => hcreate user t)
      (fun _ _ _ => ⟨rfl, trivial⟩)) (fun _ _ h => h)) (fun info _ _ => ⟨info, rfl⟩))
    (fun ph y t hy => ?_)
  cases y with
  | success reply =>
    obtain ⟨rfl, info, rfl⟩ := hy
    exact fun m => spec_same rfl
  | failure e =>
    obtain ⟨rfl, _⟩ := hy
    exact fun m => spec_same rfl
  | defect => cases hy

theorem takes_findByCartId {cart : CartModel} (hcart : Found userId cart s) :
    Takes (.getCartBy userId) (fun cartItems => .cart (GetCartByInfo.from cart cartItems))
      (CartItemRepository.findByCartId cart.id) s := by
  refine Atomic.map (fun s₁ hk hs r s₂ hr => ?_)
  obtain ⟨hs₂, hk₂, hitems⟩ := hs.exec (c := .findManyCartItems cart.id) not_false hr
  rw [hitems]
  refine ⟨hs₂, hk₂, .done (items s₁) (items s₁),
    .inr ⟨rfl, rfl, .failure .unknownException, spec_same rfl⟩, ?_⟩
  cases r with
  | none => exact spec_same rfl
  | some rows => exact spec_same ⟨rfl, hcart.1, lists_of_perm hs (hk _ _ hcart.2) hr.1⟩

theorem takes_getCartBy : Takes (.getCartBy userId) id (Request.getCartBy userId).program s := by
  refine Atomic.map (Atomic.map (Stays.flatMap stays_cartOf (fun cart t _ hcart => ?_) ?_))
  · refine Atomic.map (Atomic.mono (takes_findByCartId hcart) (fun ph y u hy => ?_))
    cases y with
    | success a => exact hy
    | failure e => exact hy
    | defect => exact hy
  · intro e t _ m
    exact spec_same rfl

theorem takes_createCartItem (ho : Owns s cartId userId) :
    Takes (.addCartItem userId productId quantity) (fun item => .item (CartItemInfo.from item))
      (CartItemRepository.create cartId productId quantity) s := by
  refine Atomic.map (fun s₁ hk hs r s₂ hr => ?_)
  cases r with
  | none =>
    obtain ⟨_, rfl⟩ := hr
    exact ⟨hs, fun _ _ h => h, .pending, .inl ⟨rfl, rfl⟩, fun m => spec_same rfl⟩
  | some row =>
    obtain ⟨hallows, rfl⟩ := hr
    obtain ⟨hs₂, hnone, hitems⟩ := hs.createCartItem (hk _ _ ho) hallows
    obtain ⟨_, _, hcart, hproduct, hquantity⟩ := hallows
    have hspec : spec (.addCartItem userId productId quantity) (items s₁)
        (.success (.item (CartItemInfo.from (CartItemModel.from row))))
        ((items s₁).set userId productId (some quantity)) :=
      spec_set ⟨hnone, rfl, hproduct, hquantity⟩
    rw [hitems]
    exact ⟨hs₂, fun _ _ h => h, _, .inr ⟨rfl, rfl, _, hspec⟩, hspec⟩

theorem takes_addToCart (ho : Owns s cartId userId) :
    Takes (.addCartItem userId productId quantity) .item
      (CartService.addCartItem ⟨cartId, productId, quantity⟩) s := by
  have hfails : ∀ e : Error, Answers (spec (.addCartItem userId productId quantity)) .pending
      ((Exit.failure e : Exit Error CartItemModel).map (fun item => Reply.item (CartItemInfo.from item))) :=
    fun _ _ => spec_same rfl
  have hcheck : ∀ (productStock : ProductStockModel) (t : Tables),
      Operation (fun m m' => ∃ x, spec (.addCartItem userId productId quantity) m x m')
        (Stays (fun _ => True) (fun _ _ => True) .pending) .pending
        (CartService.checkStockAvailability quantity productStock) t := by
    intro productStock t
    rw [CartService.checkStockAvailability]
    split
    · exact ⟨rfl, trivial⟩
    · exact ⟨rfl, trivial⟩
  have hread : Operation (fun m m' => ∃ x, spec (.addCartItem userId productId quantity) m x m')
      (Stays (fun _ => True) (fun cart _ => cart.id = cartId) .pending) .pending
      ((((ProductStockRepository.getById productId).flatMap
        (CartService.checkStockAvailability quantity)).flatMap
        (fun _ => CartRepository.getById cartId)).tap (fun cart => CartRepository.update cart.id)) s := by
    refine Stays.flatMap (Stays.flatMap (Stays.flatMap stays_getStock
      (fun productStock t _ _ => hcheck productStock t) (fun _ _ _ => ⟨rfl, trivial⟩))
      (fun _ t _ _ => Stays.weaken stays_getCart (fun _ _ => trivial) (fun _ _ h => h))
      (fun _ _ _ => ⟨rfl, trivial⟩)) (fun cart t _ hid => ?_) (fun _ _ _ => ⟨rfl, trivial⟩)
    exact Stays.map (Stays.weaken stays_update (fun _ _ => trivial) (fun _ _ h => h)) (fun _ _ _ => hid)
  refine Atomic.map (Stays.flatMap hread (fun cart t hk hid => ?_) (fun e _ _ => hfails e))
  subst hid
  refine Atomic.mono (takes_createCartItem (hk _ _ ho)) (fun ph y t hy => ?_)
  cases y with
  | success item => exact hy
  | failure e => exact hy
  | defect => exact hy

theorem takes_addCartItem :
    Takes (.addCartItem userId productId quantity) id
      (Request.addCartItem userId productId quantity).program s := by
  refine Atomic.map (Stays.flatMap (P := fun command t => Owns t command.cartId userId ∧
      command = ⟨command.cartId, productId, quantity⟩)
    (Stays.map stays_getCartBy (fun _ _ ho => ⟨ho, rfl⟩)) ?_ (fun e t _ => fun _ => spec_same rfl))
  rintro ⟨cartId, _, _⟩ t _ ⟨ho, hcommand⟩
  cases hcommand
  refine Atomic.mono (takes_addToCart ho) (fun ph y u hy => ?_)
  cases y with
  | success item => exact hy
  | failure e => exact hy
  | defect => exact hy

/-- A removal takes effect when the item is deleted. What follows can only fail with
`UnknownException`. -/
theorem takes_deleteCartItem {read : CartModel × ProductModel} (ho : Owns s read.1.id userId)
    (hid : read.2.id = productId) :
    Takes (.removeCartItem userId productId) (fun _ => .removed)
      (CartService.deleteCartItemEffect read) s := by
  refine Atomic.flatMap (Atomic.catchAll (Atomic.map (fun s₁ hk hs r s₂ hr => ?_)))
  cases r with
  | none =>
    obtain ⟨_, rfl⟩ := hr
    exact ⟨hs, fun _ _ h => h, .pending, .inl ⟨rfl, rfl⟩, fun m => spec_same rfl⟩
  | some v =>
    obtain ⟨hallows, rfl⟩ := hr
    obtain ⟨hs₂, hsome, hitems⟩ := hs.deleteCartItem (hk _ _ ho) hallows
    rw [hid] at hsome hitems
    have hspec : spec (.removeCartItem userId productId) (items s₁) (.success .removed)
        ((items s₁).set userId productId none) := spec_set ⟨hsome, rfl⟩
    rw [hid, hitems]
    refine ⟨hid ▸ hs₂, fun _ _ h => h, _, .inr ⟨rfl, rfl, _, hspec⟩, ?_⟩
    refine Atomic.map (Atomic.mono (stays_update) (fun ph' y t hy => ?_))
    cases y with
    | success cart =>
      obtain ⟨rfl, _⟩ := hy
      exact hspec
    | failure e =>
      obtain ⟨rfl, rfl⟩ := hy
      exact hspec
    | defect => cases hy

theorem takes_removeCartItem :
    Takes (.removeCartItem userId productId) id (Request.removeCartItem userId productId).program s := by
  have hfails : ∀ e : Error, e ≠ .unknownException →
      Answers (spec (.removeCartItem userId productId)) .pending (.failure e : Exit Error Reply) := by
    intro e hne m
    cases e with
    | application kind errorCode message => exact spec_same rfl
    | unknownException => exact absurd rfl hne
    | error message => exact spec_same rfl
  have hread : Operation (fun m m' => ∃ x, spec (.removeCartItem userId productId) m x m')
      (Stays (· ≠ .unknownException) (fun read t => Owns t read.1.id userId ∧ read.2.id = productId)
        .pending) .pending (CartService.getCartAndProductEffect ⟨userId, productId⟩) s := by
    refine Stays.flatMap stays_getByUserId (fun cart t _ ho => ?_) ?_
    · refine Atomic.map (Atomic.mono (operation_kept stays_getProduct) (fun ph' y u hy => ?_))
      obtain ⟨hk, hy⟩ := hy
      cases y with
      | success product => exact ⟨hy.1, hk _ _ ho, hy.2⟩
      | failure e => exact ⟨hy.1, by rw [hy.2]; rintro ⟨⟩⟩
      | defect => exact hy
    · rintro e t rfl
      exact ⟨rfl, by rintro ⟨⟩⟩
  refine Atomic.map (Atomic.catchAll (Stays.flatMap hread (fun read t _ hfound => ?_)
    (fun e t hne => hfails e hne)))
  refine Atomic.mono (takes_deleteCartItem hfound.1 hfound.2) (fun ph y u hy => ?_)
  cases y with
  | success a => exact hy
  | failure e => exact hy
  | defect => exact hy

end Requests

section Runs

variable {Pid : Type} [DecidableEq Pid] {s : Tables}
  {c : Config Pid Request Call (fun c => Option c.Answer) Error Reply Tables}
  {os : List (Observation Pid Request Error Reply)} {rs : List (Request × Exit Error Reply)}
  {userId : ℕ}

/-- Every request is one operation on the carts. -/
theorem operation_program (request : Request) (s : Tables) :
    Operation (fun m m' => ∃ x, spec request m x m') (fun ph x _ => Answers (spec request) ph x)
      .pending request.program s := by
  have htakes : Takes request id request.program s := by
    cases request with
    | create userId => exact takes_create
    | getCartBy userId => exact takes_getCartBy
    | addCartItem userId productId quantity => exact takes_addCartItem
    | removeCartItem userId productId => exact takes_removeCartItem
  refine Atomic.mono htakes (fun ph x t hx => ?_)
  cases x with
  | success a => exact hx
  | failure e => exact hx
  | defect => exact hx

omit [DecidableEq Pid] in
theorem refines : Refines (system Pid) items spec Sound Keeps where
  refl := Keeps.refl
  trans := Keeps.trans
  env := by
    rintro s s' hs ⟨hcart, hitem⟩
    have hs' : Sound s' := by
      refine ⟨hcart ▸ hs.carts, hcart ▸ hs.owners, hitem ▸ hs.keys, ?_⟩
      rw [hitem, hcart]
      exact hs.belongs
    have howns : ∀ cartId userId, Owns s' cartId userId ↔ Owns s cartId userId := by
      intro cartId userId
      rw [Owns, hcart, Owns]
    exact ⟨hs', fun _ _ ho => (howns _ _).mpr ho, items_congr hs hs' (fun _ _ ho => (howns _ _).mpr ho)
      (fun _ _ ho => .inl ((howns _ _).mp ho)) hitem⟩
  start := by
    rintro i j s s' hs rfl
    exact ⟨hs, Keeps.refl _, rfl, operation_program j _⟩

/-- However the requests on the carts overlap, and whichever of their statements fail, they
are answered as if each of them were one step on a map of what the carts hold. -/
theorem carts_histories (hs : Sound s) (h : Observed (system Pid) (quiet s) os c) :
    ∃ a, History spec (idle (items s)) os a ∧ a.object = items c.shared ∧ Sound c.shared := by
  obtain ⟨a, ha, hsim⟩ := refines.histories hs h
  exact ⟨a, ha, hsim.object, hsim.sound⟩

/-- What the last request that wrote the product has left of it in the cart. -/
def write (productId : ℕ) : Request × Exit Error Reply → Option ℤ → Option ℤ
  | (.addCartItem _ product quantity, .success _), o =>
      if productId = product then some quantity else o
  | (.removeCartItem _ product, .success _), o => if productId = product then none else o
  | (.removeCartItem _ product, .failure .unknownException), o =>
      if productId = product then none else o
  | _, o => o

theorem ownSpec_write {request : Request} {m m' : ℕ → Option ℤ} {x : Exit Error Reply}
    (h : ownSpec request m x m') (productId : ℕ) :
    m' productId = write productId (request, x) (m productId) := by
  cases x with
  | defect => cases request <;> cases h
  | failure e =>
    cases request with
    | create _ => exact congrFun h _
    | getCartBy _ => exact congrFun h _
    | addCartItem _ _ _ => exact congrFun h _
    | removeCartItem user product =>
      cases e with
      | application _ _ _ => exact congrFun h _
      | error _ => exact congrFun h _
      | unknownException =>
        obtain ⟨_, rfl⟩ := h
        exact Function.update_apply _ _ _ _
  | success reply =>
    cases request with
    | create _ =>
      cases reply with
      | created info => exact congrFun h _
      | cart info => cases h
      | item info => cases h
      | removed => cases h
    | getCartBy _ =>
      cases reply with
      | cart info => exact congrFun h.1 _
      | created info => cases h
      | item info => cases h
      | removed => cases h
    | addCartItem user product quantity =>
      cases reply with
      | item info =>
        obtain ⟨_, rfl, _⟩ := h
        exact Function.update_apply _ _ _ _
      | created info => cases h
      | cart info => cases h
      | removed => cases h
    | removeCartItem user product =>
      cases reply with
      | removed =>
        obtain ⟨_, rfl⟩ := h
        exact Function.update_apply _ _ _ _
      | created info => cases h
      | cart info => cases h
      | item info => cases h

theorem session_write {m m' : ℕ → Option ℤ} (h : Session ownSpec m rs m') (productId : ℕ) :
    m' productId = rs.foldr (write productId) (m productId) := by
  induction h with
  | nil => rfl
  | cons _ hstep ih => rw [ownSpec_write hstep productId, ih, List.foldr_cons]

/-- A user whose requests come one at a time is answered as by a cart that nobody else uses,
whatever the others do, and the cart holds what the user's last requests have left in it. -/
theorem carts_own (hs : Sound s) (h : Observed (system Pid) (quiet s) os c)
    (hserial : Serial (fun request => request.userId = userId) os rs none) :
    Session ownSpec (items s userId) rs (items c.shared userId) ∧ ∀ productId,
      items c.shared userId productId = rs.foldr (write productId) (items s userId productId) := by
  obtain ⟨a, ha, hsim⟩ := refines.histories hs h
  have hsession : Session ownSpec (items s userId) rs (a.object userId) := by
    have hown : ∀ (request : Request) (m : CartMap) (x : Exit Error Reply) (m' : CartMap),
        spec request m x m' → request.userId = userId → ownSpec request (m userId) x (m' userId) := by
      rintro request m x m' ⟨hown, _⟩ rfl
      exact hown
    refine (ha.session (fun m => m userId) hserial ?_ hown).2
    rintro request m x m' ⟨_, hothers⟩ hne
    exact hothers userId (fun he => hne he.symm)
  rw [hsim.object] at hsession
  exact ⟨hsession, session_write hsession⟩

end Runs

section Scenes

def opened : Tables where
  user := [⟨1, "mina@shop.kr", "hash"⟩, ⟨2, "jun@shop.kr", "hash"⟩]
  cart := [⟨7, 1, 0, 0⟩, ⟨8, 2, 0, 0⟩]
  cartItem := []
  product := fun _ => none
  productStock := fun productId => if productId = 10 then some 3 else none

theorem opened_sound : Sound opened := by
  refine ⟨by simp [opened], by simp [opened], by simp [opened], ?_⟩
  rintro item ⟨⟩

def filled : Tables :=
  { opened with cart := [⟨7, 1, 0, 5⟩, ⟨8, 2, 0, 0⟩], cartItem := [⟨1, 7, 10, 2, 5, 5⟩] }

def touched : Tables := { filled with cart := [⟨7, 1, 0, 6⟩, ⟨8, 2, 0, 0⟩] }

def joined : Tables := { filled with
  cart := [⟨7, 1, 0, 5⟩, ⟨8, 2, 0, 6⟩], cartItem := [⟨1, 7, 10, 2, 5, 5⟩, ⟨2, 8, 10, 2, 6, 6⟩] }

def repeated : Tables := { joined with cart := [⟨7, 1, 0, 7⟩, ⟨8, 2, 0, 6⟩] }

theorem runs_answer {A : Type} {s t : Tables} {x : Exit Error A} (c : Call) (v : c.Answer)
    {k : Option c.Answer → Statements A} (hallows : c.Allows s v)
    (hr : Effect.Runs (exec (fun _ => True)) (k (some v)) (c.after s v) x t) :
    Effect.Runs (exec (fun _ => True)) (.perform c k) s x t :=
  Effect.runs_perform.mpr ⟨some v, c.after s v, ⟨hallows, rfl⟩, hr⟩

theorem runs_taken (user : SignUp.UserRow) (cart : CartRow) (id now : ℕ) {s : Tables} (huser : user ∈ s.user)
    (hcart : cart ∈ s.cart) (howner : cart.userId = user.id)
    (hnone : ∀ old ∈ s.cartItem, old.cartId ≠ cart.id) (hnew : ∀ old ∈ s.cartItem, old.id ≠ id)
    (hstock : s.productStock 10 = some 3) :
    Effect.Runs (exec (fun _ => True)) (Request.addCartItem user.id 10 2).program s
      (.success (.item ⟨id, cart.id, 10, 2, now, now⟩))
      (Call.after (.createCartItem cart.id 10 2)
        (Call.after (.updateCart cart.id) s { cart with updatedAt := now })
        ⟨id, cart.id, 10, 2, now, now⟩) := by
  have hempty : s.cartItem.filter (fun row => row.cartId = cart.id) = [] :=
    List.filter_eq_nil_iff.mpr (fun old hold => by simpa using hnone old hold)
  refine runs_answer (.findUniqueOrThrowUser user.id) user ⟨huser, rfl⟩ ?_
  refine runs_answer (.findUniqueOrThrowCartOf user.id) cart ⟨hcart, howner⟩ ?_
  refine runs_answer (.findManyCartItems cart.id) [] (hempty ▸ List.Perm.refl _) ?_
  refine runs_answer (.findUniqueOrThrowProductStock 10) 3 hstock ?_
  refine runs_answer (.findUniqueOrThrowCart cart.id) cart ⟨hcart, rfl⟩ ?_
  refine runs_answer (.updateCart cart.id) { cart with updatedAt := now } ⟨rfl, cart, hcart, rfl, rfl⟩ ?_
  refine runs_answer (.createCartItem cart.id 10 2) ⟨id, cart.id, 10, 2, now, now⟩
    ⟨fun old hold hid => absurd hid (hnone old hold), hnew, rfl, rfl, rfl⟩ ?_
  exact .succeed _ _

theorem runs_turnedDown {s : Tables} {updatedAt : ℕ} (now : ℕ)
    (huser : ⟨1, "mina@shop.kr", "hash"⟩ ∈ s.user) (hcart : ⟨7, 1, 0, updatedAt⟩ ∈ s.cart)
    (hitems : s.cartItem.filter (fun row => row.cartId = 7) = [⟨1, 7, 10, 2, 5, 5⟩])
    (hstock : s.productStock 10 = some 3) :
    Effect.Runs (exec (fun _ => True)) (Request.addCartItem 1 10 2).program s
      (.failure .unknownException) (Call.after (.updateCart 7) s ⟨7, 1, 0, now⟩) := by
  refine runs_answer (.findUniqueOrThrowUser 1) ⟨1, "mina@shop.kr", "hash"⟩ ⟨huser, rfl⟩ ?_
  refine runs_answer (.findUniqueOrThrowCartOf 1) ⟨7, 1, 0, updatedAt⟩ ⟨hcart, rfl⟩ ?_
  refine runs_answer (.findManyCartItems 7) [⟨1, 7, 10, 2, 5, 5⟩] (hitems ▸ List.Perm.refl _) ?_
  refine runs_answer (.findUniqueOrThrowProductStock 10) 3 hstock ?_
  refine runs_answer (.findUniqueOrThrowCart 7) ⟨7, 1, 0, updatedAt⟩ ⟨hcart, rfl⟩ ?_
  refine runs_answer (.updateCart 7) ⟨7, 1, 0, now⟩ ⟨rfl, _, hcart, rfl, rfl⟩ ?_
  exact Effect.runs_perform.mpr ⟨none, _, ⟨.inl trivial, rfl⟩, .fail _ _⟩

theorem runs_filled : Effect.Runs (exec (fun _ => True)) (Request.addCartItem 1 10 2).program opened
    (.success (.item ⟨1, 7, 10, 2, 5, 5⟩)) filled :=
  runs_taken ⟨1, "mina@shop.kr", "hash"⟩ ⟨7, 1, 0, 0⟩ 1 5 List.mem_cons_self
    List.mem_cons_self rfl (by rintro _ ⟨⟩) (by rintro _ ⟨⟩) rfl

theorem runs_touched : Effect.Runs (exec (fun _ => True)) (Request.addCartItem 1 10 2).program filled
    (.failure .unknownException) touched :=
  runs_turnedDown 6 List.mem_cons_self List.mem_cons_self rfl rfl

theorem runs_repeated : Effect.Runs (exec (fun _ => True)) (Request.addCartItem 1 10 2).program joined
    (.failure .unknownException) repeated :=
  runs_turnedDown 7 List.mem_cons_self List.mem_cons_self rfl rfl

theorem runs_joined : Effect.Runs (exec (fun _ => True)) (Request.addCartItem 2 10 2).program filled
    (.success (.item ⟨2, 8, 10, 2, 6, 6⟩)) joined :=
  runs_taken ⟨2, "jun@shop.kr", "hash"⟩ ⟨8, 2, 0, 0⟩ 2 6
    (List.mem_cons_of_mem _ List.mem_cons_self) (List.mem_cons_of_mem _ List.mem_cons_self) rfl
    (by decide) (by decide) rfl

def addition : Request := .addCartItem 1 10 2

def otherAddition : Request := .addCartItem 2 10 2

def otherTaken : Exit Error Reply := .success (.item ⟨2, 8, 10, 2, 6, 6⟩)

def taken : Exit Error Reply := .success (.item ⟨1, 7, 10, 2, 5, 5⟩)

def turnedDown : Exit Error Reply := .failure .unknownException

theorem observed_overlap : ∃ pool, Observed (system Bool) (quiet opened)
    [.answer false addition turnedDown, .answer true addition taken, .request true addition,
      .request false addition] ⟨touched, pool⟩ := by
  have hstart : Step (system Bool) (quiet opened) (.start false addition) ⟨opened, _⟩ := .start rfl rfl
  have hrequest := Observed.nil.step hstart
  have hboth := hrequest.step
    (show Step (system Bool) _ (.start true addition) ⟨opened, _⟩ from .start rfl rfl)
  have hfirst := hboth.finish (i := true) (j := addition) rfl runs_filled
  exact ⟨_, hfirst.finish (i := false) (j := addition) rfl runs_touched⟩

theorem carts_histories_overlap : ∃ a : Sequential Bool Request CartMap,
    History spec (idle (items opened)) [.answer false addition turnedDown,
      .answer true addition taken, .request true addition, .request false addition] a ∧
      a.object = items touched ∧ Sound touched :=
  have ⟨_, hrun⟩ := observed_overlap
  carts_histories opened_sound hrun

/-- The same two additions, the second one requested after the answer to the first; the other user
asks before the first of them, and is answered after it. -/
theorem observed_twice : ∃ pool, Observed (system Bool) (quiet opened)
    [.answer true addition turnedDown, .request true addition, .answer false otherAddition otherTaken,
      .answer true addition taken, .request true addition, .request false otherAddition]
    ⟨repeated, pool⟩ := by
  have hother := Observed.nil.step
    (show Step (system Bool) (quiet opened) (.start false otherAddition) ⟨opened, _⟩ from .start rfl rfl)
  have hboth := hother.step
    (show Step (system Bool) _ (.start true addition) ⟨opened, _⟩ from .start rfl rfl)
  have hfirst := hboth.finish (i := true) (j := addition) rfl runs_filled
  have hjoined := hfirst.finish (i := false) (j := otherAddition) rfl runs_joined
  have hagain := hjoined.step
    (show Step (system Bool) _ (.start true addition) ⟨joined, _⟩ from .start rfl rfl)
  exact ⟨_, hagain.finish (i := true) (j := addition) rfl runs_repeated⟩

theorem carts_own_twice : Session ownSpec (items opened 1)
    [(addition, turnedDown), (addition, taken)] (items repeated 1) ∧ ∀ productId,
      items repeated 1 productId = [(addition, turnedDown), (addition, taken)].foldr (write productId)
        (items opened 1 productId) := by
  obtain ⟨_, hrun⟩ := observed_twice
  have hother : otherAddition.userId ≠ 1 := by decide
  refine carts_own opened_sound hrun ?_
  exact .answer _ (.request true (.other (.answer _ (.request true (.other .nil hother) rfl) rfl)
    hother) rfl) rfl

end Scenes

end EcommerceService.CartHistories
