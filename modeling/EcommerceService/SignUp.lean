import Mathlib.Data.Fintype.EquivFin
import EcommerceService.Repositories

namespace EcommerceService.SignUp

open EcommerceService.Effects EcommerceService.Errors EcommerceService.Models
open EcommerceService.Database

section Code

structure UserRow where
  id : ℕ
  email : String
  password : String
deriving DecidableEq, Repr

structure CartRow where
  id : ℕ
  userId : ℕ
deriving DecidableEq, Repr

structure Accounts where
  user : List UserRow
  cart : List CartRow
  wallet : List (ℕ × WalletRow)
deriving DecidableEq, Repr

inductive Call where
  | hashSync (password : String)
  | createUser (email password : String)
  | findUniqueOrThrowUser (id : ℕ)
  | createCart (userId : ℕ)
  | createWallet (userId : ℕ)
deriving DecidableEq, Repr

namespace Call

@[reducible] def Answer : Call → Type
  | hashSync _ => String
  | createUser _ _ => UserRow
  | findUniqueOrThrowUser _ => UserRow
  | createCart _ => CartRow
  | createWallet _ => ℕ × WalletRow

def Refused : Call → Accounts → Prop
  | hashSync _, _ => False
  | createUser email _, s => ∃ row ∈ s.user, row.email = email
  | findUniqueOrThrowUser id, s => ∀ row ∈ s.user, row.id ≠ id
  | createCart userId, s => ∃ row ∈ s.cart, row.userId = userId
  | createWallet userId, s => ∃ row ∈ s.wallet, row.2.userId = userId

/-- The answers of a call that succeeds. A new row gets any id that is free. -/
def Allows : (c : Call) → Accounts → c.Answer → Prop
  | hashSync _, _, _ => True
  | createUser email password, s, row =>
      (∀ old ∈ s.user, old.id ≠ row.id) ∧ row.email = email ∧ row.password = password
  | findUniqueOrThrowUser id, s, row => row ∈ s.user ∧ row.id = id
  | createCart userId, s, row => (∀ old ∈ s.cart, old.id ≠ row.id) ∧ row.userId = userId
  | createWallet userId, s, row =>
      (∀ old ∈ s.wallet, old.1 ≠ row.1) ∧ row.2 = ⟨userId, 0, 0⟩

def after : (c : Call) → Accounts → c.Answer → Accounts
  | hashSync _, s, _ => s
  | createUser _ _, s, row => { s with user := s.user ++ [row] }
  | findUniqueOrThrowUser _, s, _ => s
  | createCart _, s, row => { s with cart := s.cart ++ [row] }
  | createWallet _, s, row => { s with wallet := s.wallet ++ [row] }

end Call

structure Outage where
  hash : Bool
  user : Bool
  read : Bool
  cart : Bool
  wallet : Bool
deriving DecidableEq, Repr

namespace Outage

def rejects (outage : Outage) : Call → Bool
  | .hashSync _ => outage.hash
  | .createUser _ _ => outage.user
  | .findUniqueOrThrowUser _ => outage.read
  | .createCart _ => outage.cart
  | .createWallet _ => outage.wallet

def none : Outage := ⟨false, false, false, false, false⟩

def exec (outage : Outage) : (c : Call) → Accounts → Option c.Answer → Accounts → Prop
  | c, s, .none, t => (outage.rejects c = true ∨ c.Refused s) ∧ t = s
  | c, s, some v, t => outage.rejects c = false ∧ ¬ c.Refused s ∧ c.Allows s v ∧ t = c.after s v

end Outage

abbrev Calls (A : Type) : Type := Effect Call (fun c => Option c.Answer) Error A

def tryPromise (c : Call) : Calls c.Answer := .attempt .unknownException c

structure UserModel where
  id : ℕ
  email : String
  password : String
deriving DecidableEq, Repr

def UserModel.from (user : UserRow) : UserModel := ⟨user.id, user.email, user.password⟩

structure CartModel where
  id : ℕ
  userId : ℕ
deriving DecidableEq, Repr

def CartModel.from (cart : CartRow) : CartModel := ⟨cart.id, cart.userId⟩

structure UserInfo where
  id : ℕ
  email : String
deriving DecidableEq, Repr

def UserInfo.from (domain : UserModel) : UserInfo := ⟨domain.id, domain.email⟩

structure CartInfo where
  id : ℕ
  userId : ℕ
deriving DecidableEq, Repr

def CartInfo.from (domain : CartModel) : CartInfo := ⟨domain.id, domain.userId⟩

structure WalletInfo where
  id : ℕ
  userId : ℕ
  totalPoint : ℚ
  version : ℕ
deriving DecidableEq, Repr

def WalletInfo.from (domain : WalletModel) : WalletInfo :=
  ⟨domain.id, domain.userId, domain.totalPoint, domain.version⟩

namespace UserRepository

def create (email password : String) : Calls UserModel :=
  ((tryPromise (.createUser email password)).map UserModel.from).catchAll
    (fun _ => .fail (.appConflict ErrorCodes.userAlreadyExists))

def getById (id : ℕ) : Calls UserModel :=
  ((tryPromise (.findUniqueOrThrowUser id)).map UserModel.from).catchAll
    (fun _ => .fail (.appNotFound ErrorCodes.userNotFound))

end UserRepository

def CartRepository.create (userId : ℕ) : Calls CartModel :=
  (tryPromise (.createCart userId)).map CartModel.from

def WalletRepository.create (userId : ℕ) : Calls WalletModel :=
  (tryPromise (.createWallet userId)).map (fun wallet => Repositories.WalletModel.from wallet.1 wallet.2)

/-- `bcrypt.hashSync` throws while the effect is still being built. -/
def UserService.signUp (email password : String) : Calls UserInfo :=
  .perform (.hashSync password) (fun
    | some hash => (UserRepository.create email hash).map UserInfo.from
    | none => .die)

def CartService.create (userId : ℕ) : Calls CartInfo :=
  ((UserRepository.getById userId).flatMap (fun user => CartRepository.create user.id)).map
    CartInfo.from

def WalletService.create (userId : ℕ) : Calls WalletInfo :=
  (WalletRepository.create userId).map WalletInfo.from

namespace UserFacade

def afterSignUpEffect (user : UserInfo) : Calls UserInfo :=
  (Effect.all [(CartService.create user.id).asVoid, (WalletService.create user.id).asVoid]).map
    (fun _ => user)

/-- Nothing puts the three inserts into one transaction. -/
def signUp (email password : String) : Calls UserInfo :=
  (UserService.signUp email password).flatMap afterSignUpEffect

end UserFacade

end Code

section Runs

variable {A : Type} {outage : Outage} {s t : Accounts} {c : Call}

variable {userId : ℕ}

theorem runs_createCart {x : Exit Error CartInfo}
    (h : Effect.Runs outage.exec (CartService.create userId) s x t)
    (huser : ∃ row ∈ s.user, row.id = userId) (hcart : ∀ cart ∈ s.cart, cart.userId ≠ userId) :
    (outage.read = false ∧ outage.cart = false ∧ (∃ info, x = .success info) ∧
        ∃ cart : CartRow, cart.userId = userId ∧ t = { s with cart := s.cart ++ [cart] }) ∨
      ((outage.read = true ∨ outage.cart = true) ∧ (∃ e, x = .failure e) ∧ t = s) := by
  obtain ⟨y, hy, rfl⟩ := Effect.runs_map.mp h
  obtain ⟨z, u, hread, hcreate⟩ := Effect.runs_flatMap.mp hy
  obtain ⟨row, ⟨hlive, _, ⟨_, hid⟩, rfl⟩, rfl⟩ | ⟨⟨hrejected, rfl⟩, rfl⟩ := Effect.runs_attempt_orFail hread
  · obtain ⟨cart, ⟨hopen, _, ⟨_, howner⟩, rfl⟩, rfl⟩ | ⟨⟨hrejected, rfl⟩, rfl⟩ :=
      Effect.runs_attempt_map hcreate
    · exact .inl ⟨hlive, hopen, ⟨_, rfl⟩, cart, howner.trans hid, rfl⟩
    · obtain hrejected | ⟨cart, hm, howner⟩ := hrejected
      · exact .inr ⟨.inr hrejected, ⟨_, rfl⟩, rfl⟩
      · exact absurd (howner.trans hid) (hcart cart hm)
  · obtain ⟨rfl, rfl⟩ := Effect.runs_fail.mp hcreate
    obtain hrejected | hmissing := hrejected
    · exact .inr ⟨.inl hrejected, ⟨_, rfl⟩, rfl⟩
    · obtain ⟨row, hm, hid⟩ := huser
      exact absurd hid (hmissing row hm)

theorem runs_createWallet {x : Exit Error WalletInfo}
    (h : Effect.Runs outage.exec (WalletService.create userId) s x t)
    (hwallet : ∀ wallet ∈ s.wallet, wallet.2.userId ≠ userId) :
    (outage.wallet = false ∧ (∃ info, x = .success info) ∧ ∃ wallet : ℕ × WalletRow,
        wallet.2.userId = userId ∧ t = { s with wallet := s.wallet ++ [wallet] }) ∨
      (outage.wallet = true ∧ (∃ e, x = .failure e) ∧ t = s) := by
  obtain ⟨y, hy, rfl⟩ := Effect.runs_map.mp h
  obtain ⟨wallet, ⟨hlive, _, ⟨_, hrow⟩, rfl⟩, rfl⟩ | ⟨⟨hrejected, rfl⟩, rfl⟩ := Effect.runs_attempt_map hy
  · exact .inl ⟨hlive, ⟨_, rfl⟩, wallet, congrArg WalletRow.userId hrow, rfl⟩
  · obtain hrejected | ⟨wallet, hm, howner⟩ := hrejected
    · exact .inr ⟨hrejected, ⟨_, rfl⟩, rfl⟩
    · exact absurd howner (hwallet wallet hm)

namespace Outage

def Finishes (outage : Outage) : Prop :=
  outage.read = false ∧ outage.cart = false ∧ outage.wallet = false

end Outage

inductive Provided (outage : Outage) (s : Accounts) (user : UserInfo) :
    Exit Error UserInfo → Accounts → Prop
  | whole {cart : CartRow} {wallet : ℕ × WalletRow} : outage.Finishes → cart.userId = user.id →
      wallet.2.userId = user.id → Provided outage s user (.success user)
        { s with cart := s.cart ++ [cart], wallet := s.wallet ++ [wallet] }
  | part {e : Error} {carts : List CartRow} : ¬ outage.Finishes →
      (∀ cart ∈ carts, cart.userId = user.id) →
      Provided outage s user (.failure e) { s with cart := s.cart ++ carts }

theorem runs_afterSignUpEffect {user : UserInfo} {x : Exit Error UserInfo}
    (h : Effect.Runs outage.exec (UserFacade.afterSignUpEffect user) s x t)
    (huser : ∃ row ∈ s.user, row.id = user.id) (hcart : ∀ cart ∈ s.cart, cart.userId ≠ user.id)
    (hwallet : ∀ wallet ∈ s.wallet, wallet.2.userId ≠ user.id) : Provided outage s user x t := by
  obtain ⟨y, hy, rfl⟩ := Effect.runs_map.mp h
  obtain ⟨_, u, hvoid, hrest⟩ := Effect.runs_flatMap.mp hy
  obtain ⟨z, hz, rfl⟩ := Effect.runs_map.mp hvoid
  obtain ⟨hread, hopen, ⟨info, rfl⟩, cart, howner, rfl⟩ | ⟨hfails, ⟨e, rfl⟩, rfl⟩ :=
    runs_createCart hz huser hcart
  · obtain ⟨_, hall, rfl⟩ := Effect.runs_map.mp hrest
    obtain ⟨_, v, hvoid', hnil⟩ := Effect.runs_flatMap.mp hall
    obtain ⟨w, hw, rfl⟩ := Effect.runs_map.mp hvoid'
    obtain ⟨hlive, ⟨info', rfl⟩, wallet, howner', rfl⟩ | ⟨hfails, ⟨e, rfl⟩, rfl⟩ :=
      runs_createWallet hw hwallet
    · obtain ⟨rfl, rfl⟩ := Effect.runs_succeed.mp hnil
      exact .whole ⟨hread, hopen, hlive⟩ howner howner'
    · obtain ⟨rfl, rfl⟩ := Effect.runs_fail.mp hnil
      exact .part (fun hf => by simp [hf.2.2] at hfails) (by simpa using howner)
  · obtain ⟨rfl, rfl⟩ := Effect.runs_fail.mp hrest
    have hpart : Provided outage t user (.failure e) { t with cart := t.cart ++ [] } :=
      .part (fun hf => by simp [hf.1, hf.2.1] at hfails) (by simp)
    rwa [List.append_nil] at hpart

end Runs

structure Attempt where
  email : String
  password : String
  outage : Outage
deriving DecidableEq, Repr

namespace Attempt

def Free (email : String) (s : Accounts) : Prop := ∀ row ∈ s.user, row.email ≠ email

def Registers (attempt : Attempt) (s : Accounts) : Prop :=
  attempt.outage.hash = false ∧ attempt.outage.user = false ∧ Free attempt.email s

def Harmless (attempt : Attempt) (s : Accounts) : Prop :=
  attempt.Registers s → attempt.outage.Finishes

abbrev Runs (attempt : Attempt) (s : Accounts) (x : Exit Error UserInfo) (t : Accounts) : Prop :=
  Effect.Runs attempt.outage.exec (UserFacade.signUp attempt.email attempt.password) s x t

end Attempt

structure Accounts.Sound (s : Accounts) : Prop where
  cart : ∀ cart ∈ s.cart, ∃ row ∈ s.user, row.id = cart.userId
  wallet : ∀ wallet ∈ s.wallet, ∃ row ∈ s.user, row.id = wallet.2.userId

/-- Every user has exactly one cart and exactly one wallet. -/
def Accounts.Complete (s : Accounts) : Prop :=
  ∀ row ∈ s.user, s.cart.countP (fun cart => cart.userId = row.id) = 1 ∧
    s.wallet.countP (fun wallet => wallet.2.userId = row.id) = 1

def Accounts.Orphaned (s : Accounts) : Prop :=
  ∃ row ∈ s.user, ∀ wallet ∈ s.wallet, wallet.2.userId ≠ row.id

def Accounts.Accepts (s : Accounts) (email : String) : Prop :=
  ∀ password, (∃ x t, Attempt.Runs ⟨email, password, .none⟩ s x t) ∧
    ∀ x t, Attempt.Runs ⟨email, password, .none⟩ s x t → ∃ info, x = .success info

/-- What a call of `signUp` does. -/
inductive Outcome (attempt : Attempt) (s : Accounts) : Exit Error UserInfo → Accounts → Prop
  | refused {x : Exit Error UserInfo} : ¬ attempt.Registers s → (∀ info, x ≠ .success info) →
      Outcome attempt s x s
  | registered {x : Exit Error UserInfo} {t : Accounts} (row : UserRow) : attempt.Registers s →
      (∀ old ∈ s.user, old.id ≠ row.id) → row.email = attempt.email →
      Provided attempt.outage { s with user := s.user ++ [row] }
        (UserInfo.from (UserModel.from row)) x t → Outcome attempt s x t

section Outcome

variable {attempt : Attempt} {s t : Accounts} {x : Exit Error UserInfo}

theorem Accounts.Sound.no_cart {id : ℕ} (hs : s.Sound) (hnew : ∀ old ∈ s.user, old.id ≠ id) :
    ∀ cart ∈ s.cart, cart.userId ≠ id := by
  rintro cart hm rfl
  obtain ⟨old, hold, hid⟩ := hs.cart cart hm
  exact hnew old hold hid

theorem Accounts.Sound.no_wallet {id : ℕ} (hs : s.Sound) (hnew : ∀ old ∈ s.user, old.id ≠ id) :
    ∀ wallet ∈ s.wallet, wallet.2.userId ≠ id := by
  rintro wallet hm rfl
  obtain ⟨old, hold, hid⟩ := hs.wallet wallet hm
  exact hnew old hold hid

theorem Attempt.Runs.outcome (h : attempt.Runs s x t) (hs : s.Sound) : Outcome attempt s x t := by
  obtain ⟨y, u, hsignUp, hrest⟩ := Effect.runs_flatMap.mp h
  obtain ⟨r, s', hhash, hr⟩ := Effect.runs_perform.mp hsignUp
  cases r with
  | none =>
    obtain ⟨hfails, rfl⟩ := hhash
    obtain ⟨rfl, rfl⟩ := Effect.runs_die.mp hr
    obtain ⟨rfl, rfl⟩ := Effect.runs_die.mp hrest
    refine .refused (fun hreg => ?_) (by rintro info ⟨⟩)
    obtain hfails | hfails := hfails
    · simp [Outage.rejects, hreg.1] at hfails
    · exact hfails
  | some hash =>
    obtain ⟨hlive, _, _, rfl⟩ := hhash
    obtain ⟨z, hz, rfl⟩ := Effect.runs_map.mp hr
    obtain ⟨row, ⟨hopen, hfree, ⟨hnew, hemail, _⟩, rfl⟩, rfl⟩ | ⟨⟨hfails, rfl⟩, rfl⟩ := Effect.runs_attempt_orFail hz
    · refine .registered row ⟨hlive, hopen, fun old hm he => hfree ⟨old, hm, he⟩⟩ hnew hemail
        (runs_afterSignUpEffect hrest ?_ (hs.no_cart hnew) (hs.no_wallet hnew))
      exact ⟨row, List.mem_append_right _ List.mem_cons_self, rfl⟩
    · obtain ⟨rfl, rfl⟩ := Effect.runs_fail.mp hrest
      refine .refused (fun hreg => ?_) (by rintro info ⟨⟩)
      obtain hfails | ⟨old, hm, he⟩ := hfails
      · simp [Outage.rejects, hreg.2.1] at hfails
      · exact hreg.2.2 old hm he

theorem Outcome.sound (h : Outcome attempt s x t) (hs : s.Sound) : t.Sound := by
  cases h with
  | refused _ _ => exact hs
  | registered row _ _ _ hp =>
    have hcart : ∀ cart ∈ s.cart, ∃ old ∈ s.user ++ [row], old.id = cart.userId := by
      intro cart hm
      obtain ⟨old, hold, hid⟩ := hs.cart cart hm
      exact ⟨old, List.mem_append_left _ hold, hid⟩
    have hwallet : ∀ wallet ∈ s.wallet, ∃ old ∈ s.user ++ [row], old.id = wallet.2.userId := by
      intro wallet hm
      obtain ⟨old, hold, hid⟩ := hs.wallet wallet hm
      exact ⟨old, List.mem_append_left _ hold, hid⟩
    have hrow : ∃ old ∈ s.user ++ [row], old.id = row.id :=
      ⟨row, List.mem_append_right _ List.mem_cons_self, rfl⟩
    cases hp with
    | whole _ howner howner' =>
      refine ⟨fun cart hm => ?_, fun wallet hm => ?_⟩
      · obtain hm | hm := List.mem_append.mp hm
        · exact hcart cart hm
        · cases List.mem_singleton.mp hm
          exact howner ▸ hrow
      · obtain hm | hm := List.mem_append.mp hm
        · exact hwallet wallet hm
        · cases List.mem_singleton.mp hm
          exact howner' ▸ hrow
    | part _ howner =>
      refine ⟨fun cart hm => ?_, hwallet⟩
      obtain hm | hm := List.mem_append.mp hm
      · exact hcart cart hm
      · exact howner cart hm ▸ hrow

theorem Outcome.complete (h : Outcome attempt s x t) (hs : s.Sound) (hc : s.Complete)
    (hharm : attempt.Harmless s) : t.Complete := by
  cases h with
  | refused _ _ => exact hc
  | registered row hreg hnew _ hp =>
    cases hp with
    | @whole cart wallet _ howner howner' =>
      intro user hm
      obtain hm | hm := List.mem_append.mp hm
      · have hne : row.id ≠ user.id := fun he => hnew user hm he.symm
        simpa [List.countP_append, howner, howner', UserInfo.from, UserModel.from, hne] using hc user hm
      · cases List.mem_singleton.mp hm
        have hcart : s.cart.countP (fun cart => cart.userId = row.id) = 0 := by
          simpa [List.countP_eq_zero] using hs.no_cart hnew
        have hwallet : s.wallet.countP (fun wallet => wallet.2.userId = row.id) = 0 := by
          simpa [List.countP_eq_zero] using hs.no_wallet hnew
        simp [List.countP_append, hcart, hwallet, howner, howner', UserInfo.from, UserModel.from]
    | part hfails _ => exact absurd (hharm hreg) hfails

/-- A user without a wallet never gets one. -/
theorem Outcome.orphaned (h : Outcome attempt s x t) (ho : s.Orphaned) : t.Orphaned := by
  obtain ⟨user, hm, hnone⟩ := ho
  cases h with
  | refused _ _ => exact ⟨user, hm, hnone⟩
  | registered row _ hnew _ hp =>
    cases hp with
    | @whole cart wallet _ _ howner' =>
      refine ⟨user, List.mem_append_left _ hm, fun w hw he => ?_⟩
      obtain hw | hw := List.mem_append.mp hw
      · exact hnone w hw he
      · cases List.mem_singleton.mp hw
        exact hnew user hm (he.symm.trans howner')
    | part _ _ => exact ⟨user, List.mem_append_left _ hm, hnone⟩

theorem Outcome.orphans (h : Outcome attempt s x t) (hs : s.Sound) (hharm : ¬ attempt.Harmless s) :
    t.Orphaned := by
  obtain ⟨hreg, hfails⟩ := Classical.not_imp.mp hharm
  cases h with
  | refused hnot _ => exact absurd hreg hnot
  | registered row _ hnew _ hp =>
    cases hp with
    | whole hfinishes _ _ => exact absurd hfinishes hfails
    | part _ _ =>
      exact ⟨row, List.mem_append_right _ List.mem_cons_self, hs.no_wallet hnew⟩

theorem Accounts.Orphaned.not_complete (h : s.Orphaned) : ¬ s.Complete := by
  intro hc
  obtain ⟨row, hm, hnone⟩ := h
  have hone := (hc row hm).2
  have hzero : s.wallet.countP (fun wallet => wallet.2.userId = row.id) = 0 :=
    List.countP_eq_zero.mpr (fun wallet hm he => hnone wallet hm (of_decide_eq_true he))
  rw [hzero] at hone
  cases hone

theorem free_id {α : Type} (rows : List α) (id : α → ℕ) : ∃ n, ∀ row ∈ rows, id row ≠ n := by
  obtain ⟨n, hn⟩ := Infinite.exists_notMem_finset (rows.map id).toFinset
  refine ⟨n, fun row hm he => hn ?_⟩
  exact List.mem_toFinset.mpr (he ▸ List.mem_map_of_mem hm)

theorem Call.allows_exists {c : Call} (h : ¬ c.Refused s) : ∃ v, c.Allows s v := by
  cases c with
  | hashSync password => exact ⟨password, trivial⟩
  | createUser email password =>
    obtain ⟨n, hn⟩ := free_id s.user UserRow.id
    exact ⟨⟨n, email, password⟩, hn, rfl, rfl⟩
  | findUniqueOrThrowUser id =>
    simp only [Call.Refused, not_forall, not_not] at h
    obtain ⟨row, hm, hid⟩ := h
    exact ⟨row, hm, hid⟩
  | createCart userId =>
    obtain ⟨n, hn⟩ := free_id s.cart CartRow.id
    exact ⟨⟨n, userId⟩, hn, rfl⟩
  | createWallet userId =>
    obtain ⟨n, hn⟩ := free_id s.wallet Prod.fst
    exact ⟨⟨n, ⟨userId, 0, 0⟩⟩, hn, rfl⟩

theorem exec_exists (outage : Outage) (c : Call) (s : Accounts) : ∃ r t, outage.exec c s r t := by
  by_cases hrefused : outage.rejects c = true ∨ c.Refused s
  · exact ⟨none, s, hrefused, rfl⟩
  · obtain ⟨hlive, hopen⟩ := not_or.mp hrefused
    obtain ⟨v, hv⟩ := Call.allows_exists hopen
    exact ⟨some v, _, Bool.eq_false_iff.mpr hlive, hopen, hv, rfl⟩

theorem Accounts.Sound.accepts_iff (hs : s.Sound) (email : String) :
    s.Accepts email ↔ Attempt.Free email s := by
  constructor
  · intro h
    obtain ⟨⟨x, t, hr⟩, hsucceeds⟩ := h ""
    obtain ⟨info, rfl⟩ := hsucceeds x t hr
    cases hr.outcome hs with
    | refused _ hx => exact absurd rfl (hx info)
    | registered _ hreg _ _ _ => exact hreg.2.2
  · intro hfree password
    obtain ⟨x, t, hr⟩ := Effect.runs_exists (UserFacade.signUp email password)
      (exec_exists Outage.none) s
    refine ⟨⟨x, t, hr⟩, fun x t hr => ?_⟩
    cases Attempt.Runs.outcome hr hs with
    | refused hnot _ => exact absurd ⟨rfl, rfl, hfree⟩ hnot
    | registered _ _ _ _ hp =>
      cases hp with
      | whole _ _ _ => exact ⟨_, rfl⟩
      | part hfails _ => exact absurd ⟨rfl, rfl, rfl⟩ hfails

end Outcome

structure Entry where
  attempt : Attempt
  before : Accounts
  exit : Exit Error UserInfo
  after : Accounts

/-- A call that fails leaves the tables alone, so that its email can sign up again if it was
free. -/
def Entry.AllOrNothing (entry : Entry) : Prop :=
  (∀ info, entry.exit ≠ .success info) → entry.after = entry.before ∧
    (Attempt.Free entry.attempt.email entry.before → entry.after.Accepts entry.attempt.email)

def Entry.Harmless (entry : Entry) : Prop := entry.attempt.Harmless entry.before

inductive History : List Entry → Accounts → Prop
  | nil : History [] ⟨[], [], []⟩
  | cons {entries : List Entry} {s t : Accounts} {attempt : Attempt} {x : Exit Error UserInfo} :
      History entries s → attempt.Runs s x t → History (⟨attempt, s, x, t⟩ :: entries) t

section History

variable {entries : List Entry} {s t : Accounts}

theorem History.sound (h : History entries t) : t.Sound := by
  induction h with
  | nil => exact ⟨by simp, by simp⟩
  | cons _ hr ih => exact (hr.outcome ih).sound ih

theorem Attempt.Runs.allOrNothing_iff {attempt : Attempt} {x : Exit Error UserInfo}
    (hr : attempt.Runs s x t) (hs : s.Sound) :
    Entry.AllOrNothing ⟨attempt, s, x, t⟩ ↔ attempt.Harmless s := by
  cases hr.outcome hs with
  | refused hnot _ =>
    exact ⟨fun _ hreg => absurd hreg hnot, fun _ _ => ⟨rfl, (hs.accepts_iff _).mpr⟩⟩
  | registered row hreg _ _ hp =>
    cases hp with
    | whole hfinishes _ _ => exact ⟨fun _ _ => hfinishes, fun _ hx => absurd rfl (hx _)⟩
    | part hfails _ =>
      refine ⟨fun h => ?_, fun hharm => absurd (hharm hreg) hfails⟩
      have hsame := congrArg Accounts.user (h (by rintro info ⟨⟩)).1
      simp at hsame

/-- After any calls of `signUp` every user has exactly one cart and exactly one wallet if and
only if none of them inserted a user and failed later, and each of them was all or nothing if
and only if it did not. -/
theorem signUp_complete_iff (h : History entries t) :
    (t.Complete ↔ ∀ entry ∈ entries, entry.Harmless) ∧
      ∀ entry ∈ entries, (entry.AllOrNothing ↔ entry.Harmless) := by
  refine ⟨⟨fun hc => ?_, fun hharm => ?_⟩, ?_⟩
  · by_contra hsome
    push Not at hsome
    obtain ⟨entry, hm, hnot⟩ := hsome
    refine Accounts.Orphaned.not_complete ?_ hc
    clear hc
    induction h with
    | nil => simp at hm
    | cons hprev hr ih =>
      have houtcome := hr.outcome hprev.sound
      obtain rfl | hm := List.mem_cons.mp hm
      · exact houtcome.orphans hprev.sound hnot
      · exact houtcome.orphaned (ih hm)
  · induction h with
    | nil => simp [Accounts.Complete]
    | cons hprev hr ih =>
      obtain ⟨hlast, hharm⟩ := List.forall_mem_cons.mp hharm
      exact (hr.outcome hprev.sound).complete hprev.sound (ih hharm) hlast
  · induction h with
    | nil => simp
    | cons hprev hr ih => exact List.forall_mem_cons.mpr ⟨hr.allOrNothing_iff hprev.sound, ih⟩

end History

section Scenes

def empty : Accounts := ⟨[], [], []⟩

def stopped : Attempt := ⟨"mina@shop.kr", "secret", ⟨false, true, false, false, false⟩⟩

def again : Attempt := ⟨"mina@shop.kr", "secret", .none⟩

def whole : Accounts := ⟨[⟨1, "mina@shop.kr", "hash"⟩], [⟨1, 1⟩], [(1, ⟨1, 0, 0⟩)]⟩

theorem runs_stopped :
    stopped.Runs empty (.failure (.appConflict ErrorCodes.userAlreadyExists)) empty := by
  refine Effect.runs_perform.mpr ⟨some "hash", empty, ⟨rfl, not_false, trivial, rfl⟩, ?_⟩
  exact Effect.runs_perform.mpr ⟨none, empty, ⟨.inl rfl, rfl⟩, .fail _ _⟩

theorem runs_again : again.Runs empty (.success ⟨1, "mina@shop.kr"⟩) whole := by
  refine Effect.runs_perform.mpr ⟨some "hash", _, ⟨rfl, not_false, trivial, rfl⟩, ?_⟩
  refine Effect.runs_perform.mpr ⟨some ⟨1, "mina@shop.kr", "hash"⟩, _,
    ⟨rfl, by simp [Call.Refused, Call.after, empty], ⟨by simp [Call.after, empty], rfl, rfl⟩, rfl⟩, ?_⟩
  refine Effect.runs_perform.mpr ⟨some ⟨1, "mina@shop.kr", "hash"⟩, _,
    ⟨rfl, by simp [Call.Refused, Call.after, empty, UserInfo.from, UserModel.from],
      ⟨List.mem_cons_self, rfl⟩, rfl⟩, ?_⟩
  refine Effect.runs_perform.mpr ⟨some ⟨1, 1⟩, _,
    ⟨rfl, by simp [Call.Refused, Call.after, empty], ⟨by simp [Call.after, empty], rfl⟩, rfl⟩, ?_⟩
  exact Effect.runs_perform.mpr ⟨some (1, ⟨1, 0, 0⟩), _,
    ⟨rfl, by simp [Call.Refused, Call.after, empty], ⟨by simp [Call.after, empty], rfl⟩, rfl⟩,
    .succeed _ _⟩

theorem signUp_complete_again : whole.Complete := by
  refine (signUp_complete_iff (.cons (.cons .nil runs_stopped) runs_again)).1.mpr ?_
  refine List.forall_mem_cons.mpr ⟨fun _ => ⟨rfl, rfl, rfl⟩, List.forall_mem_singleton.mpr ?_⟩
  rintro ⟨_, hlive, _⟩
  cases hlive

def halved : Attempt := ⟨"mina@shop.kr", "secret", ⟨false, false, false, true, false⟩⟩

def half : Accounts := ⟨[⟨1, "mina@shop.kr", "hash"⟩], [], []⟩

theorem runs_halved : halved.Runs empty (.failure .unknownException) half := by
  refine Effect.runs_perform.mpr ⟨some "hash", _, ⟨rfl, not_false, trivial, rfl⟩, ?_⟩
  refine Effect.runs_perform.mpr ⟨some ⟨1, "mina@shop.kr", "hash"⟩, _,
    ⟨rfl, by simp [Call.Refused, Call.after, empty], ⟨by simp [Call.after, empty], rfl, rfl⟩, rfl⟩, ?_⟩
  refine Effect.runs_perform.mpr ⟨some ⟨1, "mina@shop.kr", "hash"⟩, _,
    ⟨rfl, by simp [Call.Refused, Call.after, empty, UserInfo.from, UserModel.from],
      ⟨List.mem_cons_self, rfl⟩, rfl⟩, ?_⟩
  exact Effect.runs_perform.mpr ⟨none, _, ⟨.inl rfl, rfl⟩, .fail _ _⟩

def halving : Entry := ⟨halved, empty, .failure .unknownException, half⟩

/-- The user stays without a cart and a wallet, and the email cannot sign up again. -/
theorem signUp_halves : History [halving] half ∧ ¬ half.Complete ∧ ¬ halving.AllOrNothing ∧
    ¬ half.Accepts "mina@shop.kr" := by
  have hhistory : History [halving] half := .cons .nil runs_halved
  refine ⟨hhistory, fun hc => ?_, fun hall => ?_, fun ha => ?_⟩
  · have hone := (hc _ List.mem_cons_self).1
    cases hone
  · have hsame := (hall (by rintro info ⟨⟩)).1
    cases congrArg Accounts.user hsame
  · exact (hhistory.sound.accepts_iff _).mp ha _ List.mem_cons_self rfl

end Scenes

end EcommerceService.SignUp
