import Mathlib.Logic.Equiv.List
import EcommerceService.Sessions

namespace EcommerceService.SessionSafety

open EcommerceService.Effects EcommerceService.Errors EcommerceService.Pool
open EcommerceService.SignUp EcommerceService.Sessions

section Invariant

/-- Before, someone signed up with this email, and someone signed in with an email that the
database takes for it and a password that `bcrypt` takes for the one of the sign-up. -/
def Earned (o : Outside) (log : List (ℕ × Event)) (email : String) : Prop :=
  ∃ password address password', (∃ at', (at', .signUp email password) ∈ log) ∧
    (∃ at', (at', .signIn address password') ∈ log) ∧ o.collate email = o.collate address ∧
      o.key password' = o.key password

/-- The user has the id and the email of a row, and the request carries a token that was signed
for this email less than an hour before it came. -/
def Authentic (rows : List UserRow) (log : List (ℕ × Event)) (request : Request)
    (user : Option UserRequestDto) : Prop :=
  ∃ row ∈ rows, user = some (User (UserModel.from row)) ∧ ∃ token iat,
    Carries request.authorization token ∧ (iat, .signed row.email token) ∈ log ∧
      request.arrived < iat + expiresIn

/-- The request carries a token that was signed an hour ago or before, or one that was never
signed. -/
def Unauthentic (o : Outside) (log : List (ℕ × Event)) (now : ℕ) (request : Request)
    (code : ErrorCode) : Prop :=
  (code = ErrorCodes.userTokenExpired ∧ ∃ email token iat, Carries request.authorization token ∧
      (iat, .signed email token) ∈ log ∧ iat + expiresIn ≤ now) ∨
    (code = ErrorCodes.userAuthFailed ∧
      ∀ sub iat, ¬ Carries request.authorization (o.sign sub iat))

/-- Why an event could happen, given the users and what had happened before. -/
def Justified (o : Outside) (outage : Bool) (rows : List UserRow) (log : List (ℕ × Event))
    (now : ℕ) : Event → Prop
  | .signUp email _ => email ≠ ""
  | .signIn _ _ => True
  | .signed email token => token = o.sign email now ∧ (∃ row ∈ rows, row.email = email) ∧
      Earned o log email
  | .admitted request user => (request.isPrivate = true → Authentic rows log request user) ∧
      (request.isPrivate = false → user = none)
  | .refused request code => request.isPrivate = true ∧
      (outage = false → Unauthentic o log now request code)

def Registered (o : Outside) (log : List (ℕ × Event)) (row : UserRow) : Prop :=
  ∃ at' password salt, (at', .signUp row.email password) ∈ log ∧
    row.password = o.hash password salt

structure Sound (o : Outside) (outage : Bool) (s : Site) : Prop where
  emails : ∀ row ∈ s.accounts.user, ∀ row' ∈ s.accounts.user,
    o.collate row.email = o.collate row'.email → row = row'
  registered : ∀ row ∈ s.accounts.user, Registered o s.log row
  justified : ∀ now e before, (now, e) :: before <:+ s.log →
    Justified o outage s.accounts.user before now e

structure Onward (s t : Site) : Prop where
  users : ∀ row ∈ s.accounts.user, row ∈ t.accounts.user
  events : s.log <:+ t.log
  clock : s.clock ≤ t.clock

theorem Onward.refl (s : Site) : Onward s s := ⟨fun _ hm => hm, List.suffix_refl _, le_refl _⟩

theorem Onward.trans {s t u : Site} (h : Onward s t) (h' : Onward t u) : Onward s u :=
  ⟨fun row hm => h'.users row (h.users row hm), h.events.trans h'.events, h.clock.trans h'.clock⟩

variable {o : Outside} {outage : Bool} {s t : Site}

theorem Onward.tell (s : Site) (e : Event) : Onward s (s.tell e) :=
  ⟨fun _ hm => hm, List.suffix_cons _ _, le_refl _⟩

theorem Justified.mono {rows rows' : List UserRow} {log : List (ℕ × Event)} {now : ℕ} {e : Event}
    (h : Justified o outage rows log now e) (hrows : ∀ row ∈ rows, row ∈ rows') :
    Justified o outage rows' log now e := by
  cases e with
  | signUp email password => exact h
  | signIn email password => exact h
  | signed email token =>
    obtain ⟨htoken, ⟨row, hm, hemail⟩, hearned⟩ := h
    exact ⟨htoken, ⟨row, hrows row hm, hemail⟩, hearned⟩
  | admitted request user =>
    refine ⟨fun hp => ?_, h.2⟩
    obtain ⟨row, hm, hrow⟩ := h.1 hp
    exact ⟨row, hrows row hm, hrow⟩
  | refused request code => exact h

theorem Registered.mono {log log' : List (ℕ × Event)} {row : UserRow} (h : Registered o log row)
    (hlog : log <:+ log') : Registered o log' row := by
  obtain ⟨at', password, salt, hevent, hpassword⟩ := h
  exact ⟨at', password, salt, hlog.mem hevent, hpassword⟩

theorem Earned.mono {log log' : List (ℕ × Event)} {email : String} (h : Earned o log email)
    (hlog : log <:+ log') : Earned o log' email := by
  obtain ⟨password, address, password', ⟨at₁, hsignUp⟩, ⟨at₂, hsignIn⟩, hsame⟩ := h
  exact ⟨password, address, password', ⟨at₁, hlog.mem hsignUp⟩, ⟨at₂, hlog.mem hsignIn⟩, hsame⟩

theorem Authentic.mono {request : Request} {user : Option UserRequestDto}
    (h : Authentic s.accounts.user s.log request user) (hon : Onward s t) :
    Authentic t.accounts.user t.log request user := by
  obtain ⟨row, hm, hrow, token, iat, hcarries, hevent, hlive⟩ := h
  exact ⟨row, hon.users row hm, hrow, token, iat, hcarries, hon.events.mem hevent, hlive⟩

theorem Unauthentic.mono {request : Request} {code : ErrorCode}
    (h : Unauthentic o s.log s.clock request code) (hon : Onward s t) :
    Unauthentic o t.log t.clock request code := by
  obtain ⟨hcode, email, token, iat, hcarries, hevent, hold⟩ | h := h
  · exact .inl ⟨hcode, email, token, iat, hcarries, hon.events.mem hevent, hold.trans hon.clock⟩
  · exact .inr h

/-- An event that is justified when it happens keeps the invariant. -/
theorem Sound.tell (hs : Sound o outage s) {e : Event}
    (he : Justified o outage s.accounts.user s.log s.clock e) : Sound o outage (s.tell e) where
  emails := hs.emails
  registered row hm := (hs.registered row hm).mono (Onward.tell s e).events
  justified now e' before hsuffix := by
    obtain heq | hsuffix := List.suffix_cons_iff.mp hsuffix
    · obtain ⟨hentry, rfl⟩ := List.cons.inj heq
      obtain ⟨rfl, rfl⟩ := Prod.mk.inj hentry
      exact he
    · exact hs.justified now e' before hsuffix

theorem Sound.happened (hs : Sound o outage s) {now : ℕ} {e : Event} (h : (now, e) ∈ s.log) :
    ∃ before, Justified o outage s.accounts.user before now e := by
  obtain ⟨later, before, hlog⟩ := List.append_of_mem h
  exact ⟨before, hs.justified now e before ⟨later, hlog.symm⟩⟩

theorem Sound.signed (hs : Sound o outage s) {email token : String} {iat : ℕ}
    (h : (iat, .signed email token) ∈ s.log) :
    token = o.sign email iat ∧ email ≠ "" ∧ ∃ row ∈ s.accounts.user, row.email = email := by
  obtain ⟨_, htoken, ⟨row, hm, rfl⟩, _⟩ := hs.happened h
  obtain ⟨_, _, _, hsignUp, _⟩ := hs.registered row hm
  obtain ⟨_, hne⟩ := hs.happened hsignUp
  exact ⟨htoken, hne, row, hm, rfl⟩

end Invariant

section SignUps

variable {o : Outside} {outage : Bool} {s : Site} {email password : String}

def hashed (o : Outside) : (c : SignUp.Call) → Option c.Answer → Prop
  | .hashSync password, some hash => ∃ salt, hash = o.hash password salt
  | _, _ => True

def signingUp (o : Outside) (email password : String) : SignUp.Call → Prop
  | .hashSync password' => password' = password
  | .createUser email' hash => email' = email ∧ ∃ salt, hash = o.hash password salt
  | _ => True

theorem confined_tryPromise {c : SignUp.Call} (h : signingUp o email password c) :
    Effect.Confined (hashed o) (signingUp o email password) (fun _ => True)
      (SignUp.tryPromise c) := by
  refine ⟨h, fun r _ => ?_⟩
  cases r with
  | none => exact Effect.confined_fail.mpr trivial
  | some v => exact Effect.confined_succeed

theorem confined_signUp : Effect.Confined (hashed o) (signingUp o email password) (fun _ => True)
    (SignUp.UserFacade.signUp email password) := by
  refine Effect.Confined.flatMap (p := SignUp.UserService.signUp email password) ⟨rfl, fun r hr => ?_⟩
    (fun user => ?_)
  · cases r with
    | none => exact Effect.confined_die
    | some hash =>
      have hcreate := confined_tryPromise (c := .createUser email hash) ⟨rfl, hr⟩
      exact (hcreate.map.catchAll (fun _ _ => Effect.confined_fail.mpr trivial)).map
  · have hread : Effect.Confined (hashed o) (signingUp o email password) (fun _ => True)
        (SignUp.tryPromise (.findUniqueOrThrowUser user.id)) := confined_tryPromise trivial
    have hgetById : Effect.Confined (hashed o) (signingUp o email password) (fun _ => True)
        (SignUp.UserRepository.getById user.id) :=
      hread.map.catchAll (fun _ _ => Effect.confined_fail.mpr trivial)
    have hcart : ∀ id, Effect.Confined (hashed o) (signingUp o email password) (fun _ => True)
        (SignUp.CartRepository.create id) :=
      fun id => (confined_tryPromise (c := .createCart id) trivial).map
    have hwallet : Effect.Confined (hashed o) (signingUp o email password) (fun _ => True)
        (SignUp.WalletRepository.create user.id) :=
      (confined_tryPromise (c := .createWallet user.id) trivial).map
    refine Effect.Confined.map (Effect.Confined.all (fun p hp => ?_))
    obtain rfl | hp := List.mem_cons.mp hp
    · exact (hgetById.flatMap (fun user => hcart user.id)).map.map
    · cases List.mem_singleton.mp hp
      exact hwallet.map.map

theorem Sound.create (hs : Sound o outage s) {row : UserRow} {hash salt : String} {at' : ℕ}
    (hv : o.allows s.accounts (.createUser email hash) row) (hhash : hash = o.hash password salt)
    (hasked : (at', .signUp email password) ∈ s.log) :
    Sound o outage { s with accounts := { s.accounts with user := s.accounts.user ++ [row] } } := by
  obtain ⟨hfree, _, rfl, rfl⟩ := hv
  refine ⟨fun old hm old' hm' he => ?_, fun old hm => ?_, fun now e before hsuffix => ?_⟩
  · obtain hm | hm := List.mem_append.mp hm <;> obtain hm' | hm' := List.mem_append.mp hm'
    · exact hs.emails old hm old' hm' he
    · cases List.mem_singleton.mp hm'
      exact absurd he (hfree old hm)
    · cases List.mem_singleton.mp hm
      exact absurd he.symm (hfree old' hm')
    · exact (List.mem_singleton.mp hm).trans (List.mem_singleton.mp hm').symm
  · obtain hm | hm := List.mem_append.mp hm
    · exact hs.registered old hm
    · cases List.mem_singleton.mp hm
      exact ⟨at', password, salt, hasked, hhash⟩
  · exact (hs.justified now e before hsuffix).mono (fun old hm => List.mem_append_left _ hm)

theorem Sound.accounts (hs : Sound o outage s) {a : Accounts} (ha : a.user = s.accounts.user) :
    Sound o outage { s with accounts := a } where
  emails := ha ▸ hs.emails
  registered := ha ▸ hs.registered
  justified := ha ▸ hs.justified

end SignUps

section Programs

variable {E A : Type} {o : Outside} {outage : Bool} {s : Site}

/-- A process that keeps the invariant while the others move onward, and ends in `post`. -/
abbrev Keeps (o : Outside) (outage : Bool) (post : Exit E A → Site → Prop) (p : Process E A)
    (s : Site) : Prop :=
  Safe (exec o outage) (Sound o outage) (fun _ => Onward) (fun _ => Onward) post p s

theorem keeps_signUp {email password : String} {at' : ℕ}
    (hasked : (at', .signUp email password) ∈ s.log) :
    Keeps o outage (fun _ _ => True) (program (.signUp email password)) s := by
  have hconfined : Effect.Confined (fun | .account c => hashed o c | _ => fun _ => True)
      (fun | .account c => signingUp o email password c | _ => False) (fun _ => True)
      (program (.signUp email password)) :=
    Effect.Confined.map (Effect.Within.embed confined_signUp (fun _ _ h => h) (fun _ h => h))
  refine (Safe.of_within hconfined (F := fun s => (at', .signUp email password) ∈ s.log) hasked
    (fun _ s t hst hF => hst.events.mem hF) (fun c s r t hc hs hF hexec => ?_)).mono
      (fun _ _ _ => trivial)
  cases c with
  | account c =>
    cases r with
    | none =>
      obtain rfl := hexec
      exact ⟨by cases c <;> trivial, hs, Onward.refl _, hF⟩
    | some v =>
      obtain ⟨hv, rfl⟩ := hexec
      cases c with
      | createUser email' hash =>
        obtain ⟨rfl, salt, hhash⟩ := hc
        exact ⟨trivial, hs.create hv hhash hF,
          ⟨fun row hm => List.mem_append_left _ hm, List.suffix_refl _, le_refl _⟩, hF⟩
      | hashSync password' =>
        cases hc
        exact ⟨hv, hs, Onward.refl _, hF⟩
      | findUniqueOrThrowUser id => exact ⟨trivial, hs, Onward.refl _, hF⟩
      | createCart userId => exact ⟨trivial, hs.accounts rfl, ⟨fun _ hm => hm, List.suffix_refl _, le_refl _⟩, hF⟩
      | createWallet userId => exact ⟨trivial, hs.accounts rfl, ⟨fun _ hm => hm, List.suffix_refl _, le_refl _⟩, hF⟩
  | _ => exact absurd hc not_false

theorem keeps_map {B : Type} {p : Process E A} (f : A → B)
    (h : Keeps o outage (fun _ _ => True) p s) : Keeps o outage (fun _ _ => True) (p.map f) s := by
  refine Safe.flatMap (h.mono (fun x t _ => ?_))
  cases x <;> trivial

def Found (o : Outside) (outage : Bool) (email : String) (s : Site) :
    Exit Error UserModel → Site → Prop
  | .success user, t => ∃ row ∈ t.accounts.user, user = UserModel.from row ∧
      o.collate row.email = o.collate email ∧
      ∀ old ∈ s.accounts.user, o.collate old.email = o.collate email → old = row
  | .failure _, _ => outage = false → ∀ row ∈ s.accounts.user, o.collate row.email ≠ o.collate email
  | .defect, _ => False

theorem keeps_getByEmail (email : String) :
    Keeps o outage (fun x t => Onward s t ∧ Found o outage email s x t)
      (UserRepository.getByEmail email) s := by
  intro s₁ hon hs r s₂ hexec
  cases r with
  | none =>
    obtain ⟨hnone, rfl⟩ := hexec
    refine ⟨hs, Onward.refl _, hon, fun hout row hm => ?_⟩
    obtain hout' | hnone := hnone
    · cases hout.symm.trans hout'
    · exact hnone row (hon.users row hm)
  | some row =>
    obtain ⟨⟨hm, hemail⟩, rfl⟩ := hexec
    exact ⟨hs, Onward.refl _, hon, row, hm, rfl, hemail, fun old hold he =>
      hs.emails old (hon.users old hold) row hm (he.trans hemail.symm)⟩

theorem keeps_userService_signIn (ho : o.Lawful) {email password : String} {at' : ℕ}
    (hasked : (at', .signIn email password) ∈ s.log) :
    Keeps o outage (fun x t => ∀ user, x = .success user →
      (∃ row ∈ t.accounts.user, row.email = user.email) ∧ Earned o t.log user.email)
      (UserService.signIn email password) s := by
  refine Safe.flatMap ((keeps_getByEmail email).mono (fun x t hx => ?_))
  obtain ⟨hon, hfound⟩ := hx
  cases x with
  | failure e => rintro user ⟨⟩
  | defect => exact absurd hfound not_false
  | success user =>
    obtain ⟨row, hm, rfl, hemail, _⟩ := hfound
    intro s₁ hon₁ hs r s₂ hexec
    cases r with
    | none =>
      obtain rfl := hexec
      exact ⟨hs, Onward.refl _, by rintro user ⟨⟩⟩
    | some result =>
      obtain ⟨hresult, rfl⟩ := hexec
      refine ⟨hs, Onward.refl _, ?_⟩
      cases result with
      | false => rintro user ⟨⟩
      | true =>
        rintro user ⟨⟩
        have hm₁ := hon₁.users row hm
        obtain ⟨at₁, password', salt, hsignUp, hpassword⟩ := hs.registered row hm₁
        have hsignIn := (hon.trans hon₁).events.mem hasked
        refine ⟨⟨row, hm₁, rfl⟩, password', email, password, ⟨at₁, hsignUp⟩, ⟨at', hsignIn⟩, hemail, ?_⟩
        have hcompare : o.compare password row.password = true := hresult.symm
        rw [hpassword] at hcompare
        exact (ho.compare_hash _ _ _).mp hcompare

theorem keeps_signIn (ho : o.Lawful) {email password : String} {at' : ℕ}
    (hasked : (at', .signIn email password) ∈ s.log) :
    Keeps o outage (fun _ _ => True) (program (.signIn email password)) s := by
  refine keeps_map _ (keeps_map _ (Safe.flatMap ((keeps_userService_signIn ho hasked).mono
    (fun x t hx => ?_))))
  cases x with
  | failure e => trivial
  | defect => trivial
  | success user =>
    obtain ⟨⟨row, hm, hemail⟩, hearned⟩ := hx user rfl
    intro s₁ hon₁ hs r s₂ hexec
    cases r with
    | none =>
      obtain rfl := hexec
      exact ⟨hs, Onward.refl _, trivial⟩
    | some token =>
      obtain ⟨rfl, rfl⟩ := hexec
      exact ⟨hs.tell ⟨rfl, ⟨row, hon₁.users row hm, hemail⟩, hearned.mono hon₁.events⟩,
        Onward.tell _ _, trivial⟩

def Guarded (o : Outside) (outage : Bool) (request : Request) :
    Exit ErrorCode (Option UserModel) → Site → Prop
  | .success user, t =>
      (request.isPrivate = true → Authentic t.accounts.user t.log request (user.map User)) ∧
        (request.isPrivate = false → user = none)
  | .failure code, t => request.isPrivate = true ∧
      (outage = false → Unauthentic o t.log t.clock request code)
  | .defect, _ => False

theorem not_carries (ho : o.Lawful) {authorization : Option String} {sub : String} {iat : ℕ}
    (h : AuthGuard.extractBearerToken authorization ≠ some (o.sign sub iat)) :
    ¬ Carries authorization (o.sign sub iat) :=
  fun hc => h ((extractBearerToken_eq_some_iff (ho.sign_plain sub iat).2).mpr hc)

theorem keeps_findUser {request : Request} {sub token : String} {iat : ℕ} {row : UserRow}
    (hp : request.isPrivate = true) (hcarries : Carries request.authorization token)
    (htoken : (iat, .signed sub token) ∈ s.log) (hlive : request.arrived < iat + expiresIn)
    (hm : row ∈ s.accounts.user) (hrow : row.email = sub) :
    Keeps o outage (Guarded o outage request) (AuthGuard.findUser sub) s := by
  refine Safe.catchAll (Safe.flatMap ((keeps_getByEmail sub).mono (fun x t hx => ?_)))
  obtain ⟨hon, hfound⟩ := hx
  cases x with
  | success user =>
    obtain ⟨row', hm', rfl, _, hsame⟩ := hfound
    obtain rfl := hsame row hm (congrArg o.collate hrow)
    obtain rfl := hrow
    refine ⟨fun _ => ⟨row, hm', rfl, token, iat, hcarries, hon.events.mem htoken, hlive⟩, fun hpub => ?_⟩
    cases hp.symm.trans hpub
  | failure e =>
    exact ⟨hp, fun hout => absurd (congrArg o.collate hrow) (hfound hout row hm)⟩
  | defect => exact absurd hfound not_false

theorem keeps_authenticate (ho : o.Lawful) {request : Request} {token : String}
    (hp : request.isPrivate = true) (harrived : request.arrived ≤ s.clock)
    (htoken : AuthGuard.extractBearerToken request.authorization = some token)
    (hknown : ∀ sub iat, token = o.sign sub iat → (iat, .signed sub token) ∈ s.log) :
    Keeps o outage (Guarded o outage request) (AuthGuard.authenticate token) s := by
  rw [AuthGuard.authenticate]
  split
  · next hempty =>
    refine ⟨hp, fun _ => .inr ⟨rfl, fun sub iat => not_carries ho ?_⟩⟩
    rw [htoken, hempty]
    exact fun h => (ho.sign_plain sub iat).1 (Option.some.inj h).symm
  · intro s₁ hon hs verdict s₂ hexec
    obtain ⟨rfl, rfl⟩ := hexec
    refine ⟨hs, Onward.refl _, ?_⟩
    by_cases hsigned : ∃ sub iat, token = o.sign sub iat
    · obtain ⟨sub, iat, rfl⟩ := hsigned
      have hevent := hon.events.mem (hknown sub iat rfl)
      obtain ⟨_, hne, row, hm, hrow⟩ := hs.signed hevent
      have hcarries := (extractBearerToken_eq_some_iff (ho.sign_plain sub iat).2).mp htoken
      rw [ho.verify_sign]
      split
      · next hlive =>
        rw [AuthGuard.verified, if_neg hne]
        exact keeps_findUser hp hcarries hevent ((harrived.trans hon.clock).trans_lt hlive) hm hrow
      · next hold =>
        exact ⟨hp, fun _ => .inl ⟨rfl, sub, _, iat, hcarries, hevent, not_lt.mp hold⟩⟩
    · push Not at hsigned
      rw [ho.verify_forged token _ hsigned]
      refine ⟨hp, fun _ => .inr ⟨rfl, fun sub iat => not_carries ho ?_⟩⟩
      rw [htoken]
      exact fun h => hsigned sub iat (Option.some.inj h)

theorem keeps_canActivate (ho : o.Lawful) {request : Request} (harrived : request.arrived ≤ s.clock)
    (hknown : ∀ sub iat, AuthGuard.extractBearerToken request.authorization = some (o.sign sub iat) →
      (iat, .signed sub (o.sign sub iat)) ∈ s.log) :
    Keeps o outage (Guarded o outage request)
      (AuthGuard.canActivate request.isPrivate request.authorization) s := by
  cases hp : request.isPrivate with
  | false =>
    refine ⟨fun htrue => ?_, fun _ => rfl⟩
    cases hp.symm.trans htrue
  | true =>
    rw [AuthGuard.canActivate, if_pos rfl]
    split
    · next token htoken =>
      refine keeps_authenticate ho hp harrived htoken (fun sub iat h => ?_)
      exact h ▸ hknown sub iat (h ▸ htoken)
    · next hnone =>
      refine ⟨hp, fun _ => .inr ⟨rfl, fun sub iat => not_carries ho ?_⟩⟩
      rw [hnone]
      rintro ⟨⟩

theorem keeps_respond (ho : o.Lawful) {request : Request} (harrived : request.arrived ≤ s.clock)
    (hknown : ∀ sub iat, AuthGuard.extractBearerToken request.authorization = some (o.sign sub iat) →
      (iat, .signed sub (o.sign sub iat)) ∈ s.log) :
    Keeps o outage (fun _ _ => True) (program (.request request)) s := by
  refine Safe.catchAll (Safe.flatMap ((keeps_canActivate ho harrived hknown).mono (fun x t hx => ?_)))
  cases x with
  | success user =>
    intro s₁ hon hs _ s₂ hexec
    obtain rfl := hexec
    refine ⟨hs.tell ⟨fun hp => ?_, fun hp => ?_⟩, Onward.tell _ _, trivial⟩
    · exact (hx.1 hp).mono hon
    · rw [hx.2 hp]
      rfl
  | failure code =>
    intro s₁ hon hs _ s₂ hexec
    obtain rfl := hexec
    exact ⟨hs.tell ⟨hx.1, fun hout => (hx.2 hout).mono hon⟩, Onward.tell _ _, trivial⟩
  | defect => exact absurd hx not_false

theorem sound (ho : o.Lawful) : Pool.Sound (system o outage) (fun _ _ => True) (Sound o outage)
    (fun _ => Onward) (fun _ => Onward) where
  refl _ s := Onward.refl s
  trans _ _ _ _ h h' := h.trans h'
  env s t hs ht := by
    obtain ⟨now, hnow, rfl⟩ := ht
    exact ⟨⟨hs.emails, hs.registered, hs.justified⟩, fun _ => ⟨fun _ hm => hm, List.suffix_refl _, hnow⟩⟩
  start _ j s t hs ht := by
    cases j with
    | signUp email password =>
      obtain ⟨hne, rfl⟩ := ht
      exact ⟨hs.tell hne, fun _ => Onward.tell _ _, keeps_signUp List.mem_cons_self⟩
    | signIn email password =>
      obtain rfl := ht
      exact ⟨hs.tell trivial, fun _ => Onward.tell _ _, keeps_signIn ho List.mem_cons_self⟩
    | request request =>
      obtain ⟨harrived, hknown, rfl⟩ := ht
      exact ⟨hs, fun _ => Onward.refl _, keeps_respond ho (le_of_eq harrived) hknown⟩
  call _ _ _ _ _ _ _ _ _ hg _ _ _ _ _ := hg

end Programs

section Results

variable {o : Outside} {outage : Bool}
  {c : Config ℕ Job Sessions.Call Sessions.Call.Reply Error Unit Site}
  {now : ℕ} {request : Request} {before : List (ℕ × Event)}

theorem reaches_sound (ho : o.Lawful)
    (h : Reaches (system o outage) (fun _ _ => True) (quiet opening) c) :
    Sound o outage c.shared := by
  have hopening : Sound o outage opening := by
    refine ⟨by simp [opening, SignUp.empty], by simp [opening, SignUp.empty], ?_⟩
    intro now e before hsuffix
    cases List.eq_nil_of_suffix_nil hsuffix
  exact ((sound ho).reaches hopening h).1

/-- Sign-ups, sign-ins and requests may overlap in any way, and every call may fail: a private
handler only runs for a user with the password of that user's sign-up, who got a token for it
less than an hour before the request came, and who is the one that the handler is told. -/
theorem sessions_admitted (ho : o.Lawful)
    (h : Reaches (system o outage) (fun _ _ => True) (quiet opening) c)
    {user : Option UserRequestDto} (hlog : (now, .admitted request user) :: before <:+ c.shared.log)
    (hp : request.isPrivate = true) :
    ∃ row ∈ c.shared.accounts.user, user = some (User (UserModel.from row)) ∧
      ∃ token iat earlier, Carries request.authorization token ∧ request.arrived < iat + expiresIn ∧
        (iat, .signed row.email token) :: earlier <:+ before ∧ Earned o earlier row.email := by
  have hs := reaches_sound ho h
  obtain ⟨row, hm, huser, token, iat, hcarries, hevent, hlive⟩ := (hs.justified _ _ _ hlog).1 hp
  obtain ⟨later, earlier, rfl⟩ := List.append_of_mem hevent
  have hsigned : (iat, .signed row.email token) :: earlier <:+ later ++ (iat, .signed row.email token) :: earlier :=
    List.suffix_append _ _
  obtain ⟨_, _, hearned⟩ := hs.justified _ _ _ (hsigned.trans ((List.suffix_cons _ _).trans hlog))
  exact ⟨row, hm, huser, token, iat, earlier, hcarries, hlive, hsigned, hearned⟩

/-- While the users can be read, a request is only refused if it is private and carries a token
that is an hour old, with the code that says so, or no token that the service ever signs. -/
theorem sessions_refused (ho : o.Lawful)
    (h : Reaches (system o false) (fun _ _ => True) (quiet opening) c) {code : ErrorCode}
    (hlog : (now, .refused request code) :: before <:+ c.shared.log) :
    request.isPrivate = true ∧ Unauthentic o before now request code := by
  obtain ⟨hp, hrefused⟩ := (reaches_sound ho h).justified _ _ _ hlog
  exact ⟨hp, hrefused rfl⟩

end Results

section Scenes

open Encodable

def bytes (password : String) : List UInt8 := password.toUTF8.data.toList.take 72

def strokes (n : ℕ) : String := String.ofList (List.replicate (n + 1) 'l')

def digest (password : String) : String := strokes (encode ((bytes password).map UInt8.toNat))

def stamp (sub : String) (iat : ℕ) : String := strokes (encode (sub.toList.map Char.toNat, iat))

def payloadOf (token : String) : Option (String × ℕ) :=
  ((decode (token.length - 1) : Option (List ℕ × ℕ)).map (fun p =>
    (String.ofList (p.1.map Char.ofNat), p.2))).filter (fun p => token = stamp p.1 p.2)

def plain : Outside where
  key := bytes
  hash password _ := digest password
  compare password hash := decide (hash = digest password)
  sign := stamp
  verify token now :=
    match payloadOf token with
    | some (sub, iat) => if now < iat + expiresIn then .payload (some sub) else .expired
    | none => .invalid
  collate email := email

theorem strokes_length (n : ℕ) : (strokes n).length - 1 = n := by
  simp [strokes]

theorem digest_eq_iff {password password' : String} :
    digest password = digest password' ↔ bytes password = bytes password' := by
  refine ⟨fun h => ?_, fun h => by rw [digest, h, digest]⟩
  have hcode := congrArg (fun text => text.length - 1) h
  simp only [digest, strokes_length] at hcode
  exact List.map_injective_iff.mpr (fun b b' => UInt8.toNat_inj.mp) (encode_injective hcode)

theorem payloadOf_stamp (sub : String) (iat : ℕ) : payloadOf (stamp sub iat) = some (sub, iat) := by
  have hletters : (sub.toList.map Char.toNat).map Char.ofNat = sub.toList := by
    simp [Function.comp_def]
  have hlength : (stamp sub iat).length - 1 = encode (sub.toList.map Char.toNat, iat) :=
    strokes_length _
  rw [payloadOf, hlength, encodek, Option.map_some, hletters, String.ofList_toList,
    Option.filter_some, if_pos (decide_eq_true rfl)]

theorem plain_lawful : plain.Lawful where
  compare_hash password password' salt := by
    simp only [plain, decide_eq_true_eq, digest_eq_iff]
    exact eq_comm
  verify_sign sub iat now := by
    simp only [plain, payloadOf_stamp]
  verify_forged token now h := by
    cases hp : payloadOf token with
    | none => simp only [plain, hp]
    | some p =>
      have htoken := (Option.filter_eq_some_iff.mp hp).2
      exact absurd (of_decide_eq_true htoken) (h p.1 p.2)
  sign_plain sub iat := by
    refine ⟨fun h => ?_, fun h => ?_⟩
    · have hlength := congrArg String.length h
      simp [plain, stamp, strokes] at hlength
    · simp [plain, stamp, strokes] at h

end Scenes

section Visits

def member (o : Outside) (email password : String) : UserRow := ⟨1, email, o.hash password ""⟩

def provided (o : Outside) (email password : String) : Accounts :=
  ⟨[member o email password], [⟨1, 1⟩], [(1, ⟨1, 0, 0⟩)]⟩

def visit (o : Outside) (email : String) : Request :=
  ⟨true, some ("Bearer " ++ o.sign email 0), 0⟩

def signedUp (o : Outside) (email password : String) : Site :=
  ⟨provided o email password, 0, [(0, .signUp email password)]⟩

def signedIn (o : Outside) (email password : String) : Site :=
  ((signedUp o email password).tell (.signIn email password)).tell (.signed email (o.sign email 0))

def visited (o : Outside) (email password : String) : Site :=
  (signedIn o email password).tell (.admitted (visit o email) (some ⟨1, email⟩))

abbrev Alone (o : Outside) (outage : Bool) (p : Process Error Unit) (s t : Site) : Prop :=
  Effect.Runs (fun q s r t => exec o outage q s r t ∧ True) p s (.success ()) t

variable {o : Outside} {outage : Bool} {email password : String}

theorem alone_signUp : Alone o outage (program (.signUp email password))
    (opening.tell (.signUp email password)) (signedUp o email password) := by
  refine Effect.runs_perform.mpr ⟨some (o.hash password ""), _, ⟨⟨⟨"", rfl⟩, rfl⟩, trivial⟩, ?_⟩
  refine Effect.runs_perform.mpr ⟨some (member o email password), _, ⟨⟨⟨?_, ?_⟩, rfl⟩, trivial⟩, ?_⟩
  · simp [Site.tell, opening, SignUp.empty, SignUp.Call.after]
  · simp [SignUp.Call.Allows, Site.tell, opening, SignUp.empty, SignUp.Call.after, member]
  refine Effect.runs_perform.mpr ⟨some (member o email password), _, ⟨⟨⟨?_, ?_⟩, rfl⟩, trivial⟩, ?_⟩
  · exact fun hnone => hnone _ List.mem_cons_self rfl
  · exact ⟨List.mem_cons_self, rfl⟩
  refine Effect.runs_perform.mpr ⟨some ⟨1, 1⟩, _, ⟨⟨⟨?_, ?_⟩, rfl⟩, trivial⟩, ?_⟩
  · simp [SignUp.Call.Refused, Site.tell, opening, SignUp.empty, SignUp.Call.after]
  · exact ⟨by simp [Site.tell, opening, SignUp.empty, SignUp.Call.after], rfl⟩
  refine Effect.runs_perform.mpr ⟨some (1, ⟨1, 0, 0⟩), _, ⟨⟨⟨?_, ?_⟩, rfl⟩, trivial⟩, .succeed _ _⟩
  · simp [SignUp.Call.Refused, Site.tell, opening, SignUp.empty, SignUp.Call.after]
  · exact ⟨by simp [Site.tell, opening, SignUp.empty, SignUp.Call.after], rfl⟩

theorem alone_signIn (ho : o.Lawful) : Alone o outage (program (.signIn email password))
    ((signedUp o email password).tell (.signIn email password)) (signedIn o email password) := by
  refine Effect.runs_perform.mpr ⟨some (member o email password), _,
    ⟨⟨⟨List.mem_cons_self, rfl⟩, rfl⟩, trivial⟩, ?_⟩
  refine Effect.runs_perform.mpr ⟨some true, _, ⟨⟨?_, rfl⟩, trivial⟩, ?_⟩
  · exact ((ho.compare_hash _ _ _).mpr rfl).symm
  exact Effect.runs_perform.mpr ⟨some (o.sign email 0), _, ⟨⟨rfl, rfl⟩, trivial⟩, .succeed _ _⟩

theorem canActivate_visit (ho : o.Lawful) : AuthGuard.canActivate true
    (some ("Bearer " ++ o.sign email 0)) = .perform (.verify (o.sign email 0)) AuthGuard.verified := by
  have hplain := ho.sign_plain email 0
  rw [AuthGuard.canActivate, if_pos rfl,
    (extractBearerToken_eq_some_iff hplain.2).mpr (.inl rfl)]
  exact if_neg hplain.1

theorem alone_visit (ho : o.Lawful) (hne : email ≠ "") : Alone o outage
    (program (.request (visit o email))) (signedIn o email password) (visited o email password) := by
  have hverify : o.verify (o.sign email 0) 0 = .payload (some email) := by
    rw [ho.verify_sign, if_pos (by decide)]
  rw [program, respond, visit, canActivate_visit ho]
  refine Effect.runs_perform.mpr ⟨.payload (some email), _, ⟨⟨hverify.symm, rfl⟩, trivial⟩, ?_⟩
  have hfind : AuthGuard.verified (.payload (some email)) = AuthGuard.findUser email := if_neg hne
  beta_reduce
  rw [hfind]
  refine Effect.runs_perform.mpr ⟨some (member o email password), _,
    ⟨⟨⟨List.mem_cons_self, rfl⟩, rfl⟩, trivial⟩, ?_⟩
  exact Effect.runs_perform.mpr ⟨(), _, ⟨rfl, trivial⟩, .succeed _ _⟩

def late (o : Outside) (email : String) : Request :=
  ⟨true, some ("Bearer " ++ o.sign email 0), 3600⟩

def outdated (o : Outside) (email password : String) : Site :=
  { signedIn o email password with clock := 3600 }

theorem alone_late (ho : o.Lawful) : Alone o outage (program (.request (late o email)))
    (outdated o email password)
    ((outdated o email password).tell (.refused (late o email) ErrorCodes.userTokenExpired)) := by
  have hverify : o.verify (o.sign email 0) 3600 = .expired := by
    rw [ho.verify_sign, if_neg (by decide)]
  rw [program, respond, late, canActivate_visit ho]
  refine Effect.runs_perform.mpr ⟨.expired, _, ⟨⟨hverify.symm, rfl⟩, trivial⟩, ?_⟩
  exact Effect.runs_perform.mpr ⟨(), _, ⟨rfl, trivial⟩, .succeed _ _⟩

theorem reaches_alone {j : Job} {s₀ s t : Site}
    (h : Reaches (system o outage) (fun _ _ => True) (quiet opening) (quiet s₀))
    (hs : start o j s₀ s) (hr : Alone o outage (program j) s t) :
    Reaches (system o outage) (fun _ _ => True) (quiet opening) (quiet t) := by
  have hstart := h.start (i := 0) (j := j) rfl hs trivial
  have hfinish := Reaches.finish hr hstart (fun _ _ _ _ _ => trivial) (fun _ _ _ => trivial)
  rwa [show Function.update (quiet s₀).pool 0 none = (quiet s₀).pool from
    Function.update_eq_self 0 _] at hfinish

theorem reaches_signedIn (ho : o.Lawful) (hne : email ≠ "") :
    Reaches (system o outage) (fun _ _ => True) (quiet opening)
      (quiet (signedIn o email password)) := by
  have hsignedUp : Reaches (system o outage) (fun _ _ => True) (quiet opening)
      (quiet (signedUp o email password)) :=
    reaches_alone (j := .signUp email password) .refl ⟨hne, rfl⟩ alone_signUp
  exact reaches_alone (j := .signIn email password) hsignedUp rfl (alone_signIn ho)

theorem sign_inj (ho : o.Lawful) {sub sub' : String} {iat iat' : ℕ}
    (h : o.sign sub iat = o.sign sub' iat') : sub = sub' ∧ iat = iat' := by
  have hverify := fun now => (ho.verify_sign sub iat now).symm.trans
    ((congrArg (o.verify · now) h).trans (ho.verify_sign sub' iat' now))
  refine ⟨?_, le_antisymm (not_lt.mp fun hlt => ?_) (not_lt.mp fun hlt => ?_)⟩
  · have hnow := hverify 0
    rw [if_pos (by simp [expiresIn]), if_pos (by simp [expiresIn])] at hnow
    simpa using hnow
  · have hnow := hverify (iat' + expiresIn)
    rw [if_pos (by omega), if_neg (lt_irrefl _)] at hnow
    cases hnow
  · have hnow := hverify (iat + expiresIn)
    rw [if_neg (lt_irrefl _), if_pos (by omega)] at hnow
    cases hnow

theorem known_token (ho : o.Lawful) {sub : String} {iat : ℕ}
    (h : AuthGuard.extractBearerToken (some ("Bearer " ++ o.sign email 0)) = some (o.sign sub iat)) :
    (iat, .signed sub (o.sign sub iat)) ∈ (signedIn o email password).log := by
  rw [(extractBearerToken_eq_some_iff (ho.sign_plain email 0).2).mpr (.inl rfl)] at h
  obtain ⟨rfl, rfl⟩ := sign_inj ho (Option.some.inj h)
  exact List.mem_cons_self

theorem reaches_visited (ho : o.Lawful) (hne : email ≠ "") :
    Reaches (system o outage) (fun _ _ => True) (quiet opening) (quiet (visited o email password)) :=
  reaches_alone (j := .request (visit o email)) (reaches_signedIn ho hne)
    ⟨rfl, fun _ _ => known_token ho, rfl⟩ (alone_visit ho hne)

theorem reaches_late (ho : o.Lawful) (hne : email ≠ "") :
    Reaches (system o outage) (fun _ _ => True) (quiet opening) (quiet
      ((outdated o email password).tell (.refused (late o email) ErrorCodes.userTokenExpired))) := by
  have houtdated : Reaches (system o outage) (fun _ _ => True) (quiet opening)
      (quiet (outdated o email password)) :=
    (reaches_signedIn ho hne).env ⟨3600, Nat.zero_le _, rfl⟩ trivial
  exact reaches_alone (j := .request (late o email)) houtdated ⟨rfl, fun _ _ => known_token ho, rfl⟩
    (alone_late ho)

theorem sessions_refused_late : (late plain "mina@shop.kr").isPrivate = true ∧
    Unauthentic plain (signedIn plain "mina@shop.kr" "secret").log 3600 (late plain "mina@shop.kr")
      ErrorCodes.userTokenExpired :=
  sessions_refused plain_lawful (reaches_late plain_lawful (by decide)) (List.suffix_refl _)

theorem sessions_admitted_visit : ∃ row ∈ (provided plain "mina@shop.kr" "secret").user,
    some ⟨1, "mina@shop.kr"⟩ = some (User (UserModel.from row)) ∧ ∃ token iat earlier,
      Carries (visit plain "mina@shop.kr").authorization token ∧ 0 < iat + expiresIn ∧
      (iat, .signed row.email token) :: earlier <:+ (signedIn plain "mina@shop.kr" "secret").log ∧
        Earned plain earlier row.email := by
  have hreach : Reaches (system plain false) (fun _ _ => True) (quiet opening)
      (quiet (visited plain "mina@shop.kr" "secret")) := reaches_visited plain_lawful (by decide)
  exact sessions_admitted plain_lawful hreach (List.suffix_refl _) rfl

end Visits

end EcommerceService.SessionSafety
