import EcommerceService.SignUp
import EcommerceService.Lib.Pool

namespace EcommerceService.Sessions

open EcommerceService.Effects EcommerceService.Errors EcommerceService.Pool
open EcommerceService.SignUp

section Code

/-- What `jwtService.verify` makes of a token: the `sub` of its payload, a `TokenExpiredError`,
or any other error. -/
inductive Verdict where
  | payload (sub : Option String)
  | expired
  | invalid
deriving DecidableEq, Repr

/-- The packages `bcrypt` and `jsonwebtoken`, and how the database compares emails. The unit of
time is a second. -/
structure Outside where
  /-- The bytes of a password that `bcrypt` reads. -/
  key : String → List UInt8
  hash : (password salt : String) → String
  compare : (password hash : String) → Bool
  /-- The token of a payload with this `sub`, signed now to expire in an hour. -/
  sign : (sub : String) → (now : ℕ) → String
  verify : (token : String) → (now : ℕ) → Verdict
  collate : String → String

def expiresIn : ℕ := 3600

/-- The documented behaviour of the packages. Who does not know the secret cannot sign. -/
structure Outside.Lawful (o : Outside) : Prop where
  compare_hash : ∀ password password' salt,
    o.compare password (o.hash password' salt) = true ↔ o.key password = o.key password'
  verify_sign : ∀ sub iat now, o.verify (o.sign sub iat) now =
    if now < iat + expiresIn then .payload (some sub) else .expired
  verify_forged : ∀ token now, (∀ sub iat, token ≠ o.sign sub iat) → o.verify token now = .invalid
  sign_plain : ∀ sub iat, o.sign sub iat ≠ "" ∧ ' ' ∉ (o.sign sub iat).toList

structure UserRequestDto where
  id : ℕ
  email : String
deriving DecidableEq, Repr

def User (user : UserModel) : UserRequestDto := ⟨user.id, user.email⟩

structure Request where
  isPrivate : Bool
  authorization : Option String
  arrived : ℕ
deriving DecidableEq, Repr

inductive Call where
  | account (c : SignUp.Call)
  | findUniqueOrThrowUser (email : String)
  | compare (password hash : String)
  | sign (sub : String)
  | verify (token : String)
  | handle (request : Request) (user : Option UserRequestDto)
  | refuse (request : Request) (code : ErrorCode)
deriving DecidableEq, Repr

/-- A rejected promise and a thrown exception are `none`. -/
@[reducible] def Call.Reply : Call → Type
  | account c => Option c.Answer
  | findUniqueOrThrowUser _ => Option UserRow
  | compare _ _ => Option Bool
  | sign _ => Option String
  | verify _ => Verdict
  | handle _ _ => Unit
  | refuse _ _ => Unit

abbrev Process (E A : Type) : Type := Effect Call Call.Reply E A

def settle {A : Type} : Option A → Process Error A
  | some a => .succeed a
  | none => .fail .unknownException

def UserRepository.getByEmail (email : String) : Process Error UserModel :=
  ((Effect.perform (.findUniqueOrThrowUser email) settle).map UserModel.from).catchAll
    (fun _ => .fail (.appNotFound ErrorCodes.userNotFound))

namespace UserService

def getByEmail (email : String) : Process Error UserModel := UserRepository.getByEmail email

def verifyPasswordAndGetUserInfo (password : String) (user : UserModel) : Process Error UserInfo :=
  ((Effect.perform (.compare password user.password) settle).flatMap (fun result =>
    if result then .succeed () else .fail (.appAuth ErrorCodes.userAuthFailed))).map
      (fun _ => UserInfo.from user)

/-- `getByEmail` never yields `null`. -/
def signIn (email password : String) : Process Error UserInfo :=
  (UserRepository.getByEmail email).flatMap (verifyPasswordAndGetUserInfo password)

end UserService

namespace UserFacade

/-- `jwtService.sign` throws inside `Effect.map`. -/
def generateAccessToken (user : UserInfo) : Process Error String :=
  .perform (.sign user.email) (fun
    | some token => .succeed token
    | none => .die)

def signIn (email password : String) : Process Error String :=
  (UserService.signIn email password).flatMap generateAccessToken

end UserFacade

def UserController.signIn (email password : String) : Process Error String :=
  (UserFacade.signIn email password).map (fun accessToken => "Bearer " ++ accessToken)

namespace AuthGuard

def split (separator : Char) (s : String) : List String :=
  (s.toList.splitOn separator).map String.ofList

def extractBearerToken (authorization : Option String) : Option String :=
  match (authorization.map (split ' ')).getD [] with
  | type :: token :: _ => if type = "Bearer" then some token else none
  | _ => none

/-- What the promise of `getByEmail` rejects with is no `HttpException`, so that the guard turns it
into its own. -/
def findUser (sub : String) : Process ErrorCode (Option UserModel) :=
  ((UserService.getByEmail sub).map some).catchAll (fun _ => .fail ErrorCodes.userAuthFailed)

def verified : Verdict → Process ErrorCode (Option UserModel)
  | .payload (some sub) => if sub = "" then .fail ErrorCodes.userAuthFailed else findUser sub
  | .payload none => .fail ErrorCodes.userAuthFailed
  | .expired => .fail ErrorCodes.userTokenExpired
  | .invalid => .fail ErrorCodes.userAuthFailed

def authenticate (token : String) : Process ErrorCode (Option UserModel) :=
  if token = "" then .fail ErrorCodes.userAuthFailed else .perform (.verify token) verified

/-- The value is `request.user`, a failure the code of an `UnauthorizedException`. -/
def canActivate (isPrivate : Bool) (authorization : Option String) :
    Process ErrorCode (Option UserModel) :=
  if isPrivate then
    match extractBearerToken authorization with
    | some token => authenticate token
    | none => .fail ErrorCodes.userAuthFailed
  else .succeed none

end AuthGuard

def respond (request : Request) : Process Error Unit :=
  ((AuthGuard.canActivate request.isPrivate request.authorization).flatMap (fun user =>
    .perform (.handle request (user.map User)) (fun _ => .succeed ()))).catchAll
      (fun code => .perform (.refuse request code) (fun _ => .succeed ()))

def account {A : Type} (p : SignUp.Calls A) : Process Error A := p.embed .account (fun _ r => r)

inductive Job where
  | signUp (email password : String)
  | signIn (email password : String)
  | request (request : Request)
deriving DecidableEq, Repr

def program : Job → Process Error Unit
  | .signUp email password => (account (SignUp.UserFacade.signUp email password)).asVoid
  | .signIn email password => (UserController.signIn email password).asVoid
  | .request request => respond request

end Code

section Header

open AuthGuard

def Carries (authorization : Option String) (token : String) : Prop :=
  authorization = some ("Bearer " ++ token) ∨
    ∃ rest, authorization = some ("Bearer " ++ token ++ " " ++ rest)

variable {separator : Char} {a b s token : String} {pieces : List String}

theorem split_append (ha : separator ∉ a.toList) (hs : s.toList = a.toList ++ separator :: b.toList) :
    split separator s = a :: split separator b := by
  rw [split, hs, List.splitOn_append_cons_self_of_not_mem ha, List.map_cons, String.ofList_toList, split]

theorem split_of_not_mem (hs : separator ∉ s.toList) : split separator s = [s] := by
  rw [split, List.splitOn_eq_singleton hs, List.map_singleton, String.ofList_toList]

theorem split_toList (h : split separator s = a :: b :: pieces) :
    s.toList = a.toList ++ separator :: b.toList ∨
      ∃ rest, s.toList = a.toList ++ separator :: b.toList ++ separator :: rest := by
  have hpieces : s.toList.splitOn separator = (a :: b :: pieces).map String.toList := by
    rw [← h, split, List.map_map]
    simp [Function.comp_def]
  have hs : [separator].intercalate (s.toList.splitOn separator) = s.toList :=
    List.intercalate_splitOn separator
  rw [hpieces] at hs
  cases pieces with
  | nil => exact .inl (by simp [← hs])
  | cons c pieces =>
    exact .inr ⟨[separator].intercalate ((c :: pieces).map String.toList), by simp [← hs]⟩

theorem extractBearerToken_eq_some_iff {authorization : Option String} (htoken : ' ' ∉ token.toList) :
    extractBearerToken authorization = some token ↔ Carries authorization token := by
  cases authorization with
  | none => simp [extractBearerToken, Carries]
  | some s =>
    have hbearer : ' ' ∉ "Bearer".toList := by decide
    constructor
    · intro h
      rw [extractBearerToken] at h
      split at h
      · next type token' pieces hsplit =>
        split at h
        · next htype =>
          cases h
          subst htype
          obtain hs | ⟨rest, hs⟩ := split_toList hsplit
          · refine .inl (congrArg some (String.toList_inj.mp ?_))
            simp [hs]
          · refine .inr ⟨String.ofList rest, congrArg some (String.toList_inj.mp ?_)⟩
            simp [hs]
        · cases h
      · cases h
    · rintro (h | ⟨rest, h⟩) <;> cases h
      · have hs : split ' ' ("Bearer " ++ token) = ["Bearer", token] := by
          rw [split_append hbearer (b := token) (by simp), split_of_not_mem htoken]
        simp [extractBearerToken, hs]
      · have hs : split ' ' ("Bearer " ++ token ++ " " ++ rest) = "Bearer" :: token :: split ' ' rest := by
          rw [split_append hbearer (b := token ++ " " ++ rest) (by simp),
            split_append htoken (b := rest) (by simp)]
        simp [extractBearerToken, hs]

end Header

section System

inductive Event where
  | signUp (email password : String)
  | signIn (email password : String)
  | signed (email token : String)
  | admitted (request : Request) (user : Option UserRequestDto)
  | refused (request : Request) (code : ErrorCode)
deriving DecidableEq, Repr

/-- The tables, the clock, and what happened, with its time and the last first. -/
structure Site where
  accounts : Accounts
  clock : ℕ
  log : List (ℕ × Event)
deriving DecidableEq, Repr

def Site.tell (s : Site) (e : Event) : Site := { s with log := (s.clock, e) :: s.log }

/-- What a call of a sign-up makes: `hashSync` takes some salt, and an email is taken if the
database has an equal one. -/
def Outside.allows (o : Outside) (s : Accounts) : (c : SignUp.Call) → c.Answer → Prop
  | .hashSync password, hash => ∃ salt, hash = o.hash password salt
  | .createUser email password, row => (∀ old ∈ s.user, o.collate old.email ≠ o.collate email) ∧
      SignUp.Call.Allows (.createUser email password) s row
  | c, v => ¬ c.Refused s ∧ c.Allows s v

/-- Every promise may be rejected. Without an `outage` the users can be read. -/
def exec (o : Outside) (outage : Bool) : (c : Call) → Site → c.Reply → Site → Prop
  | .account c, s, some v, t => o.allows s.accounts c v ∧
      t = { s with accounts := c.after s.accounts v }
  | .account _, s, none, t => t = s
  | .findUniqueOrThrowUser email, s, some row, t =>
      (row ∈ s.accounts.user ∧ o.collate row.email = o.collate email) ∧ t = s
  | .findUniqueOrThrowUser email, s, none, t =>
      (outage = true ∨ ∀ row ∈ s.accounts.user, o.collate row.email ≠ o.collate email) ∧ t = s
  | .compare password hash, s, some result, t => result = o.compare password hash ∧ t = s
  | .compare _ _, s, none, t => t = s
  | .sign sub, s, some token, t => token = o.sign sub s.clock ∧ t = s.tell (.signed sub token)
  | .sign _, s, none, t => t = s
  | .verify token, s, verdict, t => verdict = o.verify token s.clock ∧ t = s
  | .handle request user, s, _, t => t = s.tell (.admitted request user)
  | .refuse request code, s, _, t => t = s.tell (.refused request code)

/-- A token that the service has signed is in a request only after that. The email of a sign-up
has passed `IsEmail`. -/
def start (o : Outside) : Job → Site → Site → Prop
  | .signUp email password, s, t => email ≠ "" ∧ t = s.tell (.signUp email password)
  | .signIn email password, s, t => t = s.tell (.signIn email password)
  | .request request, s, t => request.arrived = s.clock ∧
      (∀ sub iat, AuthGuard.extractBearerToken request.authorization = some (o.sign sub iat) →
        (iat, .signed sub (o.sign sub iat)) ∈ s.log) ∧ t = s

def system (o : Outside) (outage : Bool) : System ℕ Job Call Call.Reply Error Unit Site where
  exec := exec o outage
  program := program
  start _ := start o
  env s t := ∃ now, s.clock ≤ now ∧ t = { s with clock := now }

def opening : Site := ⟨SignUp.empty, 0, []⟩

end System

end EcommerceService.Sessions
