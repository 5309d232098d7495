import EcommerceService.CartHistories

namespace EcommerceService.CartAnswers

open EcommerceService.Effects EcommerceService.Errors EcommerceService.Models
open EcommerceService.Linearize EcommerceService.Carts EcommerceService.CartHistories

section Answers

/-- Why a request fails when every statement that the tables allow gets its answer. -/
def error : Request → Tables → Option Error
  | .create userId, s =>
      if ∀ row ∈ s.user, row.id ≠ userId then some (.appNotFound ErrorCodes.userNotFound)
      else if ∃ cart ∈ s.cart, cart.userId = userId then some .unknownException else none
  | .getCartBy userId, s =>
      if ∀ row ∈ s.user, row.id ≠ userId then some (.appNotFound ErrorCodes.userNotFound)
      else if ∀ cart ∈ s.cart, cart.userId ≠ userId then some (.appNotFound ErrorCodes.cartNotFound)
      else none
  | .addCartItem userId productId quantity, s =>
      if ∀ row ∈ s.user, row.id ≠ userId then some (.appNotFound ErrorCodes.userNotFound)
      else if ∀ cart ∈ s.cart, cart.userId ≠ userId then some (.appNotFound ErrorCodes.cartNotFound)
      else match s.productStock productId with
        | none => some (.appNotFound ErrorCodes.productNotFound)
        | some stock =>
          if stock < quantity then some (.appConflict ErrorCodes.productOutOfStock)
          else if items s userId productId = none then none else some .unknownException
  | .removeCartItem userId productId, s =>
      if ∀ cart ∈ s.cart, cart.userId ≠ userId then some (.appNotFound ErrorCodes.cartNotFound)
      else if s.product productId = none then some (.appNotFound ErrorCodes.productNotFound)
      else if items s userId productId = none then some (.appNotFound ErrorCodes.cartItemNotFound)
      else none

abbrev live : (c : Call) → Tables → Option c.Answer → Tables → Prop := exec (fun _ => False)

variable {A : Type} {s t : Tables} {c : Call}

theorem live_exists (c : Call) (s : Tables) : ∃ r t, live c s r t := by
  by_cases h : ∃ v, c.Allows s v
  · obtain ⟨v, hv⟩ := h
    exact ⟨some v, c.after s v, hv, rfl⟩
  · exact ⟨none, s, .inr (fun v hv => h ⟨v, hv⟩), rfl⟩

theorem exec_of_live {r : Option c.Answer} (h : live c s r t) : exec (fun _ => True) c s r t := by
  cases r with
  | none => exact ⟨.inl trivial, h.2⟩
  | some v => exact h

theorem live_mapped {f : c.Answer → A} {x : Exit Error A}
    (h : Effect.Runs live ((tryPromise c).map f) s x t) :
    (∃ v, c.Allows s v ∧ c.after s v = t ∧ x = .success (f v)) ∨
      ((∀ v, ¬ c.Allows s v) ∧ s = t ∧ x = .failure .unknownException) := by
  obtain ⟨v, ⟨hallows, rfl⟩, rfl⟩ | ⟨⟨hnone, rfl⟩, rfl⟩ := Effect.runs_attempt_map h
  · exact .inl ⟨v, hallows, rfl, rfl⟩
  · exact .inr ⟨hnone.resolve_left id, rfl, rfl⟩

theorem live_orFail {f : c.Answer → A} {e : Error} {x : Exit Error A}
    (h : Effect.Runs live (((tryPromise c).map f).catchAll (fun _ => .fail e)) s x t) :
    (∃ v, c.Allows s v ∧ c.after s v = t ∧ x = .success (f v)) ∨
      ((∀ v, ¬ c.Allows s v) ∧ s = t ∧ x = .failure e) := by
  obtain ⟨v, ⟨hallows, rfl⟩, rfl⟩ | ⟨⟨hnone, rfl⟩, rfl⟩ := Effect.runs_attempt_orFail h
  · exact .inl ⟨v, hallows, rfl, rfl⟩
  · exact .inr ⟨hnone.resolve_left id, rfl, rfl⟩

variable {userId productId cartId : ℕ} {quantity : ℤ}

theorem runs_getUser {x : Exit Error SignUp.UserModel}
    (h : Effect.Runs live (UserRepository.getById userId) s x t) : s = t ∧
      (((∃ row ∈ s.user, row.id = userId) ∧ ∃ user, x = .success user ∧ user.id = userId) ∨
        ((∀ row ∈ s.user, row.id ≠ userId) ∧ x = .failure (.appNotFound ErrorCodes.userNotFound))) := by
  obtain ⟨v, ⟨hm, hid⟩, rfl, rfl⟩ | ⟨hnone, rfl, rfl⟩ := live_orFail h
  · exact ⟨rfl, .inl ⟨⟨v, hm, hid⟩, _, rfl, hid⟩⟩
  · exact ⟨rfl, .inr ⟨fun row hm hid => hnone row ⟨hm, hid⟩, rfl⟩⟩

theorem runs_getCart {x : Exit Error CartModel}
    (h : Effect.Runs live (CartRepository.getByUserId userId) s x t) : s = t ∧
      ((∃ cart, x = .success cart ∧ Owns s cart.id userId ∧ cart.userId = userId) ∨
        ((∀ cart ∈ s.cart, cart.userId ≠ userId) ∧
          x = .failure (.appNotFound ErrorCodes.cartNotFound))) := by
  obtain ⟨v, ⟨hm, huser⟩, rfl, rfl⟩ | ⟨hnone, rfl, rfl⟩ := live_orFail h
  · exact ⟨rfl, .inl ⟨_, rfl, ⟨v, hm, rfl, huser⟩, huser⟩⟩
  · exact ⟨rfl, .inr ⟨fun cart hm huser => hnone cart ⟨hm, huser⟩, rfl⟩⟩

theorem runs_getCartBy {x : Exit Error GetCartByInfo}
    (h : Effect.Runs live (CartService.getCartBy userId) s x t) : s = t ∧
      ((error (.getCartBy userId) s = none ∧ ∃ read, x = .success read ∧ Owns s read.cart.id userId) ∨
        ∃ e, error (.getCartBy userId) s = some e ∧ x = .failure e) := by
  obtain ⟨y, hy, rfl⟩ := Effect.runs_map.mp h
  obtain ⟨z, u, hz, hitems⟩ := Effect.runs_flatMap.mp hy
  obtain ⟨w, u', huser, hcart⟩ := Effect.runs_flatMap.mp hz
  obtain ⟨rfl, ⟨⟨row, hm, hid⟩, user, rfl, rfl⟩ | ⟨hnone, rfl⟩⟩ := runs_getUser huser
  · have hsome : ¬ ∀ row ∈ s.user, row.id ≠ user.id := fun hall => hall row hm hid
    obtain ⟨rfl, ⟨cart, rfl, ho, _⟩ | ⟨hnone, rfl⟩⟩ := runs_getCart hcart
    · obtain ⟨v, hv, rfl⟩ := Effect.runs_map.mp hitems
      obtain ⟨rows, _, rfl, rfl⟩ | ⟨hnone, _, _⟩ := live_mapped hv
      · obtain ⟨cartRow, hcartRow, hcartId, howner⟩ := ho
        have hhas : ¬ ∀ cart ∈ s.cart, cart.userId ≠ user.id := fun hall => hall cartRow hcartRow howner
        refine ⟨rfl, .inl ⟨?_, _, rfl, cartRow, hcartRow, hcartId, howner⟩⟩
        rw [error, if_neg hsome, if_neg hhas]
      · exact absurd (List.Perm.refl _) (hnone _)
    · obtain ⟨rfl, rfl⟩ := Effect.runs_fail.mp hitems
      refine ⟨rfl, .inr ⟨_, ?_, rfl⟩⟩
      rw [error, if_neg hsome, if_pos hnone]
  · obtain ⟨rfl, rfl⟩ := Effect.runs_fail.mp hcart
    obtain ⟨rfl, rfl⟩ := Effect.runs_fail.mp hitems
    refine ⟨rfl, .inr ⟨_, ?_, rfl⟩⟩
    rw [error, if_pos hnone]

def Meets (o : Option Error) : Exit Error A → Prop
  | .success _ => o = none
  | .failure e => o = some e
  | .defect => False

theorem Meets.map {B : Type} {o : Option Error} {x : Exit Error A} {f : A → B} (h : Meets o x) :
    Meets o (x.map f) := by
  cases x with
  | success a => exact h
  | failure e => exact h
  | defect => exact h

theorem createCartItem_allowed (hs : Sound s) (ho : Owns s cartId userId) :
    (∃ v, Call.Allows (.createCartItem cartId productId quantity) s v) ↔
      items s userId productId = none := by
  constructor
  · rintro ⟨row, hallows⟩
    exact (hs.createCartItem ho hallows).2.1
  · intro hnone
    obtain ⟨id, hid⟩ := SignUp.free_id s.cartItem CartItemRow.id
    refine ⟨⟨id, cartId, productId, quantity, 0, 0⟩, fun old hm hcart hproduct => ?_, hid, rfl, rfl, rfl⟩
    have hsome := (items_eq_some hs ho).mpr ⟨old, hm, hcart, hproduct, rfl⟩
    cases hnone.symm.trans hsome

theorem deleteCartItem_allowed (hs : Sound s) (ho : Owns s cartId userId) :
    (∃ v, Call.Allows (.deleteCartItem cartId productId) s v) ↔ items s userId productId ≠ none := by
  constructor
  · rintro ⟨_, hallows⟩
    exact (hs.deleteCartItem ho hallows).2.1
  · intro hsome
    obtain ⟨quantity, hq⟩ := Option.ne_none_iff_exists'.mp hsome
    obtain ⟨item, hm, hcart, hproduct, _⟩ := (items_eq_some hs ho).mp hq
    exact ⟨(), item, hm, hcart, hproduct⟩

theorem runs_update (hs : Sound s) (ho : Owns s cartId userId) {x : Exit Error CartModel}
    (h : Effect.Runs live (CartRepository.update cartId) s x t) :
    (∃ cart, x = .success cart) ∧ Sound t ∧ Owns t cartId userId ∧ items t = items s ∧
      t.productStock = s.productStock := by
  obtain ⟨v, hallows, rfl, rfl⟩ | ⟨hnone, _, _⟩ := live_mapped h
  · obtain ⟨ht, hk, hitems⟩ := hs.updateCart hallows
    exact ⟨⟨_, rfl⟩, ht, hk _ _ ho, hitems, rfl⟩
  · obtain ⟨cart, hm, hid, _⟩ := ho
    exact absurd ⟨hid, cart, hm, hid, rfl⟩ (hnone cart)

theorem meets_create {x : Exit Error CartInfo}
    (h : Effect.Runs live (CartService.create userId) s x t) : Meets (error (.create userId) s) x := by
  obtain ⟨y, hy, rfl⟩ := Effect.runs_map.mp h
  refine Meets.map ?_
  obtain ⟨z, u, huser, hcreate⟩ := Effect.runs_flatMap.mp hy
  obtain ⟨rfl, ⟨⟨row, hm, hid⟩, user, rfl, rfl⟩ | ⟨hnone, rfl⟩⟩ := runs_getUser huser
  · have hsome : ¬ ∀ row ∈ s.user, row.id ≠ user.id := fun hall => hall row hm hid
    obtain ⟨v, ⟨hfree, _, _⟩, rfl, rfl⟩ | ⟨hnone, rfl, rfl⟩ := live_mapped hcreate
    · have hno : ¬ ∃ cart ∈ s.cart, cart.userId = user.id :=
        fun ⟨cart, hcart, howner⟩ => hfree cart hcart howner
      rw [Meets, error, if_neg hsome, if_neg hno]
    · have hhas : ∃ cart ∈ s.cart, cart.userId = user.id := by
        by_contra hno
        obtain ⟨id, hid⟩ := SignUp.free_id s.cart CartRow.id
        exact hnone ⟨id, user.id, 0, 0⟩ ⟨fun cart hcart howner => hno ⟨cart, hcart, howner⟩, hid, rfl⟩
      rw [Meets, error, if_neg hsome, if_pos hhas]
  · obtain ⟨rfl, rfl⟩ := Effect.runs_fail.mp hcreate
    rw [Meets, error, if_pos hnone]

theorem meets_getCartBy {x : Exit Error GetCartByInfo}
    (h : Effect.Runs live (CartService.getCartBy userId) s x t) :
    Meets (error (.getCartBy userId) s) x := by
  obtain ⟨_, ⟨hnone, read, rfl, _⟩ | ⟨e, he, rfl⟩⟩ := runs_getCartBy h
  · exact hnone
  · exact he

def addError (quantity : ℤ) (stock held : Option ℤ) : Option Error :=
  match stock with
  | none => some (.appNotFound ErrorCodes.productNotFound)
  | some stock =>
    if stock < quantity then some (.appConflict ErrorCodes.productOutOfStock)
    else if held = none then none else some .unknownException

theorem meets_addToCart (hs : Sound s) (ho : Owns s cartId userId) {x : Exit Error CartItemInfo}
    (h : Effect.Runs live (CartService.addCartItem ⟨cartId, productId, quantity⟩) s x t) :
    Meets (addError quantity (s.productStock productId) (items s userId productId)) x := by
  obtain ⟨y, hy, rfl⟩ := Effect.runs_map.mp h
  refine Meets.map ?_
  rw [Effect.tap, Effect.flatMap_assoc, Effect.flatMap_assoc, Effect.flatMap_assoc] at hy
  obtain ⟨z, u, hread, hrest⟩ := Effect.runs_flatMap.mp hy
  obtain ⟨stock, hstock, rfl, rfl⟩ | ⟨hnone, rfl, rfl⟩ := live_orFail hread
  · have hstock : s.productStock productId = some stock := hstock
    obtain ⟨z, u, hcheck, hrest⟩ := Effect.runs_flatMap.mp hrest
    rw [CartService.checkStockAvailability] at hcheck
    split at hcheck
    · rename_i henough
      have hle : ¬ stock < quantity := not_lt.mpr (of_decide_eq_true henough)
      obtain ⟨rfl, hsame⟩ := Effect.runs_succeed.mp hcheck
      rw [hsame] at hrest
      obtain ⟨z, u, hcart, hrest⟩ := Effect.runs_flatMap.mp hrest
      obtain ⟨row, ⟨_, hid⟩, rfl, rfl⟩ | ⟨hnone, rfl, rfl⟩ := live_orFail hcart
      · have ho' : Owns s row.id userId := hid ▸ ho
        obtain ⟨z, u, hupdate, hrest⟩ := Effect.runs_flatMap.mp hrest
        obtain ⟨w, hw, rfl⟩ := Effect.runs_map.mp hupdate
        obtain ⟨⟨cart, rfl⟩, hu, hou, hitems, _⟩ := runs_update hs ho' hw
        obtain ⟨item, hallows, _, rfl⟩ | ⟨hnone, _, rfl⟩ := live_mapped hrest
        · have hfree := (createCartItem_allowed hu hou).mp ⟨item, hallows⟩
          rw [hitems] at hfree
          simp [Meets, addError, hstock, hle, hfree]
        · have htaken : items s userId productId ≠ none := by
            intro hfree
            rw [← hitems] at hfree
            obtain ⟨v, hv⟩ : ∃ v, Call.Allows (.createCartItem _ productId quantity) u v :=
              (createCartItem_allowed hu hou).mpr hfree
            exact hnone v hv
          simp [Meets, addError, hstock, hle, htaken]
      · obtain ⟨cart, hm, hid, _⟩ := ho
        exact absurd ⟨hm, hid⟩ (hnone cart)
    · rename_i hshort
      have hlt : stock < quantity := by simpa [ProductStockModel.inStock] using hshort
      obtain ⟨rfl, _⟩ := Effect.runs_fail.mp hcheck
      obtain ⟨rfl, _⟩ := Effect.runs_fail.mp hrest
      simp [Meets, addError, hstock, hlt]
  · obtain ⟨rfl, _⟩ := Effect.runs_fail.mp hrest
    have hmissing : s.productStock productId = none :=
      Option.eq_none_iff_forall_ne_some.mpr (fun stock hstock => hnone stock hstock)
    simp [Meets, addError, hmissing]

theorem meets_addCartItem (hs : Sound s) {x : Exit Error CartItemInfo}
    (h : Effect.Runs live (OrderFacade.addCartItem userId productId quantity) s x t) :
    Meets (error (.addCartItem userId productId quantity) s) x := by
  rw [OrderFacade.addCartItem, Effect.map_flatMap] at h
  obtain ⟨y, u, hread, hadd⟩ := Effect.runs_flatMap.mp h
  obtain ⟨rfl, ⟨hnone, read, rfl, ho⟩ | ⟨e, he, rfl⟩⟩ := runs_getCartBy hread
  · have hmeets := meets_addToCart hs ho hadd
    simp only [error] at hnone ⊢
    split at hnone
    · cases hnone
    · split at hnone
      · cases hnone
      · rename_i huser hcart
        rw [if_neg huser, if_neg hcart]
        exact hmeets
  · obtain ⟨rfl, _⟩ := Effect.runs_fail.mp hadd
    simp only [error] at he
    split at he
    · rename_i huser
      rw [Meets, error, if_pos huser, he]
    · split at he
      · rename_i huser hcart
        rw [Meets, error, if_neg huser, if_pos hcart, he]
      · cases he

theorem meets_removeCartItem (hs : Sound s) {x : Exit Error Unit}
    (h : Effect.Runs live (OrderFacade.removeCartItem userId productId) s x t) :
    Meets (error (.removeCartItem userId productId) s) x := by
  obtain ⟨x', u', hbody, hlast⟩ := Effect.runs_catchAll.mp h
  have hsame : x = x' := by
    cases x' with
    | success a => exact (Effect.runs_succeed.mp hlast).1
    | failure e => exact (Effect.runs_fail.mp hlast).1
    | defect => exact (Effect.runs_die.mp hlast).1
  subst hsame
  rw [CartService.getCartAndProductEffect, Effect.flatMap_assoc] at hbody
  obtain ⟨y, u, hcart, hrest⟩ := Effect.runs_flatMap.mp hbody
  obtain ⟨rfl, ⟨cart, rfl, ho, _⟩ | ⟨hnone, rfl⟩⟩ := runs_getCart hcart
  · have hhas : ¬ ∀ cart ∈ s.cart, cart.userId ≠ userId := by
      obtain ⟨row, hm, _, huser⟩ := ho
      exact fun hall => hall row hm huser
    simp only [Effect.resume] at hrest
    rw [Effect.map_flatMap] at hrest
    obtain ⟨z, u, hproduct, hrest⟩ := Effect.runs_flatMap.mp hrest
    obtain ⟨row, hrow, rfl, rfl⟩ | ⟨hnone, rfl, rfl⟩ := live_orFail hproduct
    · have hrow : s.product productId = some row := hrow
      obtain ⟨w, u, hdelete, hrest⟩ := Effect.runs_flatMap.mp hrest
      obtain ⟨_, hallows, rfl, rfl⟩ | ⟨hnone, _, rfl⟩ := live_orFail hdelete
      · obtain ⟨ht, hsome, _⟩ := hs.deleteCartItem ho hallows
        obtain ⟨v, hv, rfl⟩ := Effect.runs_map.mp hrest
        obtain ⟨⟨cart', rfl⟩, _⟩ := runs_update ht ho hv
        have hheld : items s userId productId ≠ none := hsome
        simp [Meets, Exit.map, error, hhas, hrow, hheld]
      · obtain ⟨rfl, _⟩ := Effect.runs_fail.mp hrest
        have hheld : items s userId productId = none := by
          by_contra hsome
          obtain ⟨v, hv⟩ := (deleteCartItem_allowed hs ho).mpr hsome
          exact hnone v hv
        simp [Meets, error, hhas, hrow, hheld]
    · obtain ⟨rfl, _⟩ := Effect.runs_fail.mp hrest
      have hmissing : s.product productId = none :=
        Option.eq_none_iff_forall_ne_some.mpr (fun row hrow => hnone row hrow)
      simp [Meets, error, hhas, hmissing]
  · obtain ⟨rfl, _⟩ := Effect.runs_fail.mp hrest
    rw [Meets, error, if_pos hnone]

/-- Where no statement fails that the tables allow, every request on a cart ends; it fails
exactly where a check of its own finds a reason, with that reason's error, and does to the
carts the one step that it is to do. -/
theorem request_answers (hs : Sound s) (request : Request) :
    (∃ x t, Effect.Runs live request.program s x t) ∧
      ∀ x t, Effect.Runs live request.program s x t →
        Meets (error request s) x ∧ spec request (items s) x (items t) ∧ Sound t := by
  refine ⟨Effect.runs_exists _ live_exists s, fun x t hr => ?_⟩
  obtain ⟨ht, hstep⟩ := (operation_program request s).runs_spec Keeps.refl hs
    (hr.mono (fun _ _ _ _ => exec_of_live))
  refine ⟨?_, hstep, ht⟩
  cases request with
  | create userId =>
    obtain ⟨y, hy, rfl⟩ := Effect.runs_map.mp hr
    exact (meets_create hy).map
  | getCartBy userId =>
    obtain ⟨y, hy, rfl⟩ := Effect.runs_map.mp hr
    exact (meets_getCartBy hy).map
  | addCartItem userId productId quantity =>
    obtain ⟨y, hy, rfl⟩ := Effect.runs_map.mp hr
    exact (meets_addCartItem hs hy).map
  | removeCartItem userId productId =>
    obtain ⟨y, hy, rfl⟩ := Effect.runs_map.mp hr
    exact (meets_removeCartItem hs hy).map

/-- The first addition is taken, and the second one is not. -/
theorem request_answers_twice :
    (∀ x t, Effect.Runs live addition.program opened x t → Meets none x ∧
      spec addition (items opened) x (items t) ∧ Sound t) ∧ error addition filled =
      some .unknownException :=
  ⟨(request_answers opened_sound addition).2, by decide⟩

end Answers

end EcommerceService.CartAnswers
