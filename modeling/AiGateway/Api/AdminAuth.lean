import AiGateway.Api.KeyAuth

/-!
# Admin access (`gateway-api/src/auth.rs:30-64`, `routes/admin/auth.rs:29-120`)

The root token is read from the configuration at boot (`gateway-bin/src/main.rs:164-181`). A
session token is signed by `login` and accepted by the extractor; signing and checking one,
and hashing and checking a password, are parameters. The users are those of the in-memory
metadata store (`memory/mod.rs:260-306`), which may hold some from earlier runs.
-/

namespace AiGateway.Api
open AiGateway.Core AiGateway.Storage AiGateway.Library AiGateway.Library.Runs

structure AdminConfig where
  rootToken : String := "env://GATEWAY_ROOT_TOKEN"
  passwordLogin : Bool := false
  deriving DecidableEq, Repr

/-- `read_admin_token`. -/
def readAdminToken (env : String → Option String) (config : AdminConfig) :
    Except String (Option String) :=
  let raw := trim config.rootToken
  if raw = "" then .ok none
  else
    match stripStart raw "env://" with
    | some var =>
      if var = "" then .error "admin.root_token env reference is missing a var name"
      else .ok ((env var).filter (· ≠ ""))
    | none => .ok (some raw)

/-! ### Users -/

structure AdminUser where
  id : String
  username : String
  passwordHash : String
  createdAt : Int
  lastLoginAt : Option Int
  deriving DecidableEq, Repr

abbrev AdminUsers := HashMap String AdminUser

def createAdminUser (admins : AdminUsers) (id username passwordHash : String) (nowMs : Int) :
    Except StorageError AdminUser × AdminUsers :=
  if admins.any fun _ a => a.username = username then
    (.error (.conflict ("admin '" ++ username ++ "' exists")), admins)
  else
    let admin : AdminUser := ⟨id, username, passwordHash, nowMs, none⟩
    (.ok admin, admins.insert id admin)

/-- `order` is how `admins` iterates. -/
def findAdminUser (order : List (String × AdminUser)) (username : String) : Option AdminUser :=
  (order.map Prod.snd).find? fun a => a.username = username

def touchAdminLastLogin (admins : AdminUsers) (id : String) (nowMs : Int) : AdminUsers :=
  match admins.lookup id with
  | some a => admins.insert id { a with lastLoginAt := some nowMs }
  | none => admins

/-! ### Session tokens -/

structure AdminTokenClaims where
  sub : String
  username : String
  exp : ℕ
  iat : ℕ
  deriving DecidableEq, Repr

/-- `AdminTokenSigner`: tokens under the master key, checked at a clock in seconds. -/
structure AdminTokenSigner where
  encode : AdminTokenClaims → Except String String
  verify : ℕ → String → Option AdminTokenClaims

/-- A token is good until a minute after it expires. -/
def AdminTokenSigner.Honest (signer : AdminTokenSigner) : Prop :=
  ∀ claims token now, signer.encode claims = .ok token →
    signer.verify now token = if now ≤ claims.exp + 60 then some claims else none

def sessionTtlSecs : ℕ := 12 * 60 * 60

def sessionClaims (user : AdminUser) (now : ℕ) : AdminTokenClaims :=
  ⟨user.id, user.username, now + sessionTtlSecs, now⟩

/-! ### Requests -/

inductive AdminPrincipal where
  | root
  | user (id username : String)
  deriving DecidableEq, Repr

structure LoginResponse where
  token : String
  username : String
  expiresAt : ℕ
  deriving DecidableEq, Repr

structure CreateAdminResponse where
  id : String
  username : String
  deriving DecidableEq, Repr

/-- The state of the application that admin access depends on. -/
structure AdminApp where
  config : AdminConfig
  env : String → Option String
  rootToken : Option String
  booted : readAdminToken env config = .ok rootToken
  signer : AdminTokenSigner
  hashPassword : String → String → Except GatewayError String
  verifyPassword : String → String → Except GatewayError Bool

/-- The users, and the tokens signed under the master key so far with their claims, those of
earlier runs among them. -/
structure AdminState where
  admins : AdminUsers
  issued : List (String × AdminTokenClaims)

/-- Requests with the clock in milliseconds. `other` is any admin route but these two: it needs
a principal and leaves users and tokens alone. -/
inductive AdminRequest where
  | login (nowMs : ℕ) (order : List (String × AdminUser)) (username password : String)
  | createAdmin (nowMs : ℕ) (headers : HeaderMap) (username password id salt : String)
  | other (nowMs : ℕ) (headers : HeaderMap)

inductive AdminReply where
  | loggedIn (result : Except ApiError LoginResponse)
  | created (result : Except ApiError CreateAdminResponse)
  | admitted (result : Except ApiError AdminPrincipal)

section
variable (app : AdminApp)

/-- `AdminPrincipal::from_request_parts`. -/
def adminPrincipal (nowMs : ℕ) (headers : HeaderMap) : Except ApiError AdminPrincipal :=
  match extractBearer headers with
  | none => .error .unauthorized
  | some token =>
    if app.rootToken = some token then .ok .root
    else
      match app.signer.verify (nowMs / 1000) token with
      | some claims => .ok (.user claims.sub claims.username)
      | none => .error .unauthorized

def login (nowMs : ℕ) (order : List (String × AdminUser)) (username password : String)
    (s : AdminState) : Except ApiError LoginResponse × AdminState :=
  match findAdminUser order username with
  | none => (.error .unauthorized, s)
  | some user =>
    match app.verifyPassword password user.passwordHash with
    | .error e => (.error (.gateway e), s)
    | .ok false => (.error .unauthorized, s)
    | .ok true =>
      let s := { s with admins := touchAdminLastLogin s.admins user.id nowMs }
      let claims := sessionClaims user (nowMs / 1000)
      match app.signer.encode claims with
      | .error e => (.error (.gateway (.internal ("jwt encode: " ++ e))), s)
      | .ok token =>
        (.ok ⟨token, user.username, nowMs / 1000 + sessionTtlSecs⟩,
          { s with issued := (token, claims) :: s.issued })

def createAdmin (nowMs : ℕ) (headers : HeaderMap) (username password id salt : String)
    (s : AdminState) : Except ApiError CreateAdminResponse × AdminState :=
  match adminPrincipal app nowMs headers with
  | .error e => (.error e, s)
  | .ok _ =>
    if username = "" || decide (password.utf8ByteSize < 6) then
      (.error (.badRequest "username required, password >= 6 chars"), s)
    else
      match app.hashPassword salt password with
      | .error e => (.error (.gateway e), s)
      | .ok phc =>
        match createAdminUser s.admins id username phc nowMs with
        | (.error e, _) => (.error (.storage e.text), s)
        | (.ok user, admins) => (.ok ⟨user.id, user.username⟩, { s with admins })

def adminHandle (s : AdminState) : AdminRequest → AdminReply × AdminState
  | .login nowMs order username password =>
    let out := login app nowMs order username password s
    (.loggedIn out.1, out.2)
  | .createAdmin nowMs headers username password id salt =>
    let out := createAdmin app nowMs headers username password id salt s
    (.created out.1, out.2)
  | .other nowMs headers => (.admitted (adminPrincipal app nowMs headers), s)

def adminStep (s : AdminState) (r : AdminRequest) : AdminState := (adminHandle app s r).2

/-! ### What the configuration promises -/

/-- The principal that a request is granted. -/
def granted : AdminRequest → Option AdminPrincipal
  | .login .. => none
  | .createAdmin nowMs headers .. => (adminPrincipal app nowMs headers).toOption
  | .other nowMs headers => (adminPrincipal app nowMs headers).toOption

/-- Without a root token nobody is granted a principal; without `password_login` nobody is
given a token. -/
structure FollowsConfig (s : AdminState) (r : AdminRequest) : Prop where
  disabled : app.rootToken = none → granted app r = none
  noLogin : app.config.passwordLogin = false →
    ∀ response, (adminHandle app s r).1 ≠ .loggedIn (.ok response)

/-- What a run may contain: `order` is an order of the users, and a presented token that is
accepted was signed under the master key before. -/
def Genuine (s : AdminState) : AdminRequest → Prop
  | .login _ order .. => HashMap.Iterates s.admins order
  | .createAdmin nowMs headers .. | .other nowMs headers =>
    ∀ token claims, extractBearer headers = some token →
      app.signer.verify (nowMs / 1000) token = some claims → ∃ c, (token, c) ∈ s.issued

/-- The request bears a session token that has not expired. -/
def BearsSession (s : AdminState) (nowMs : ℕ) (headers : HeaderMap) : Prop :=
  ∃ token claims, extractBearer headers = some token ∧ (token, claims) ∈ s.issued ∧
    nowMs / 1000 ≤ claims.exp + 60

/-- The credentials are those of a stored user, and a session for it can be signed. -/
def KnownUser (nowMs : ℕ) (order : List (String × AdminUser)) (username password : String) :
    Prop :=
  ∃ user token, findAdminUser order username = some user ∧
    app.verifyPassword password user.passwordHash = .ok true ∧
    app.signer.encode (sessionClaims user (nowMs / 1000)) = .ok token

/-- Without a root token the request bears no session token, and without `password_login` it is
no login of a stored user. -/
def Harmless (s : AdminState) : AdminRequest → Prop
  | .login nowMs order username password =>
    app.config.passwordLogin = false → ¬KnownUser app nowMs order username password
  | .createAdmin nowMs headers .. | .other nowMs headers =>
    app.rootToken = none → ¬BearsSession s nowMs headers

/-- Every token in circulation was signed with the claims that are noted with it. -/
def Signed (s : AdminState) : Prop :=
  ∀ token claims, (token, claims) ∈ s.issued → app.signer.encode claims = .ok token

theorem login_ok_iff (nowMs : ℕ) (order : List (String × AdminUser)) (username password : String)
    (s : AdminState) :
    (∃ response, (login app nowMs order username password s).1 = .ok response) ↔
      KnownUser app nowMs order username password := by
  unfold login KnownUser
  cases hfind : findAdminUser order username with
  | none => simp
  | some user =>
    cases hverify : app.verifyPassword password user.passwordHash with
    | error e => simp [hverify]
    | ok matched =>
      cases matched with
      | false => simp [hverify]
      | true =>
        cases hsign : app.signer.encode (sessionClaims user (nowMs / 1000)) with
        | error e => simp [hverify, hsign]
        | ok token => simp [hverify, hsign]

/-- `login` adds at most the token that it returns. -/
theorem login_issued (nowMs : ℕ) (order : List (String × AdminUser)) (username password : String)
    {s : AdminState} (hsigned : Signed app s) :
    Signed app (login app nowMs order username password s).2 := by
  unfold login
  split
  · exact hsigned
  · rename_i user hfind
    split
    · exact hsigned
    · exact hsigned
    · simp only
      split
      · exact hsigned
      · rename_i token hsign
        intro token' claims hmem
        rcases List.mem_cons.mp hmem with heq | hold
        · cases heq
          exact hsign
        · exact hsigned token' claims hold

theorem createAdmin_issued (nowMs : ℕ) (headers : HeaderMap)
    (username password id salt : String) (s : AdminState) :
    (createAdmin app nowMs headers username password id salt s).2.issued = s.issued := by
  unfold createAdmin
  split
  · rfl
  · split
    · rfl
    · split
      · rfl
      · split <;> rfl

theorem Signed.step {s : AdminState} (hsigned : Signed app s) (r : AdminRequest) :
    Signed app (adminStep app s r) := by
  cases r with
  | login nowMs order username password => exact login_issued app nowMs order username password hsigned
  | createAdmin nowMs headers username password id salt =>
    have hissued := createAdmin_issued app nowMs headers username password id salt s
    intro token claims hmem
    have hmem' : (token, claims) ∈
        (createAdmin app nowMs headers username password id salt s).2.issued := hmem
    rw [hissued] at hmem'
    exact hsigned token claims hmem'
  | other nowMs headers => exact hsigned

theorem adminPrincipal_of_token {nowMs : ℕ} {headers : HeaderMap} {token : String}
    {claims : AdminTokenClaims} (hroot : app.rootToken = none)
    (hbearer : extractBearer headers = some token)
    (hverify : app.signer.verify (nowMs / 1000) token = some claims) :
    adminPrincipal app nowMs headers = .ok (.user claims.sub claims.username) := by
  simp [adminPrincipal, hroot, hbearer, hverify]

/-- Without a root token, a principal is granted to who bears a session token. -/
theorem adminPrincipal_none_iff (hhonest : app.signer.Honest) (hroot : app.rootToken = none)
    {s : AdminState} (hsigned : Signed app s) (nowMs : ℕ) (headers : HeaderMap)
    (hgenuine : ∀ token claims, extractBearer headers = some token →
      app.signer.verify (nowMs / 1000) token = some claims → ∃ c, (token, c) ∈ s.issued) :
    (adminPrincipal app nowMs headers).toOption = none ↔ ¬BearsSession s nowMs headers := by
  unfold adminPrincipal
  cases hbearer : extractBearer headers with
  | none =>
    refine iff_of_true rfl ?_
    rintro ⟨token, claims, htoken, -⟩
    cases hbearer.symm.trans htoken
  | some token =>
    simp only [hroot, reduceCtorEq, if_false]
    cases hverify : app.signer.verify (nowMs / 1000) token with
    | none =>
      refine iff_of_true rfl ?_
      rintro ⟨token', claims, htoken, hissued, hlive⟩
      cases hbearer.symm.trans htoken
      have haccept := hhonest claims token (nowMs / 1000) (hsigned token claims hissued)
      rw [hverify, if_pos hlive] at haccept
      cases haccept
    | some claims =>
      refine iff_of_false nofun (not_not_intro ?_)
      obtain ⟨c, hissued⟩ := hgenuine token claims hbearer hverify
      have haccept := hhonest c token (nowMs / 1000) (hsigned token c hissued)
      rw [hverify] at haccept
      split at haccept
      · rename_i hlive
        exact ⟨token, c, hbearer, hissued, hlive⟩
      · cases haccept

/-- A request that is not answered with a token has only the first switch to follow. -/
theorem followsConfig_of_no_token {s : AdminState} {r : AdminRequest}
    (hreply : ∀ response, (adminHandle app s r).1 ≠ .loggedIn (.ok response)) :
    FollowsConfig app s r ↔ (app.rootToken = none → granted app r = none) := by
  constructor
  · intro hfollows
    exact hfollows.disabled
  · intro hdisabled
    exact ⟨hdisabled, fun _ => hreply⟩

theorem followsConfig_iff (hhonest : app.signer.Honest) {s : AdminState} (hsigned : Signed app s)
    (r : AdminRequest) (hgenuine : Genuine app s r) :
    FollowsConfig app s r ↔ Harmless app s r := by
  cases r with
  | login nowMs order username password =>
    have hok := login_ok_iff app nowMs order username password s
    constructor
    · intro hfollows hconfig hknown
      obtain ⟨response, hresponse⟩ := hok.mpr hknown
      exact hfollows.noLogin hconfig response (congrArg AdminReply.loggedIn hresponse)
    · intro hharmless
      refine ⟨fun _ => rfl, fun hconfig response hreply => hharmless hconfig ?_⟩
      exact hok.mp ⟨response, AdminReply.loggedIn.inj hreply⟩
  | createAdmin nowMs headers username password id salt =>
    have hclosed := fun hroot =>
      adminPrincipal_none_iff app hhonest hroot hsigned nowMs headers hgenuine
    refine (followsConfig_of_no_token app fun _ h => ?_).trans (forall_congr' hclosed)
    cases h
  | other nowMs headers =>
    have hclosed := fun hroot =>
      adminPrincipal_none_iff app hhonest hroot hsigned nowMs headers hgenuine
    refine (followsConfig_of_no_token app fun _ h => ?_).trans (forall_congr' hclosed)
    cases h

/-- A run follows the configuration exactly when none of its requests bears a session token
while there is no root token, and none is a login of a stored user while `password_login` is
off: the extractor and `login` look at neither switch. -/
theorem run_followsConfig_iff (hhonest : app.signer.Honest) (s : AdminState)
    (hsigned : Signed app s) (run : List AdminRequest)
    (hgenuine : Along (adminStep app) (Genuine app) s run) :
    Along (adminStep app) (FollowsConfig app) s run ↔
      Along (adminStep app) (Harmless app) s run :=
  Along.iff_of_invariant (fun _ r hs _ => hs.step app r)
    (fun _ r hs hr => followsConfig_iff app hhonest hs r hr) run hsigned hgenuine

end

/-- The stored hash of the password `hunter2`. -/
def opsPhc : String :=
  "$argon2id$v=19$m=19456,t=2,p=1$zrIHcuDJ0kDHXrJrDjer7g" ++
    "$9S+9MrKzuG/4jvbEkGKChfSCrxXdyylUH5S89Saj9sc"

/- A configuration that turns both switches off, and a user from an earlier run. -/
def opsUser : AdminUser := ⟨"u1", "ops", opsPhc, 0, none⟩

/-- The token of a login of this user at second 1000. -/
def opsToken : String :=
  "eyJ0eXAiOiJKV1QiLCJhbGciOiJIUzI1NiJ9" ++
    ".eyJzdWIiOiJ1MSIsInVzZXJuYW1lIjoib3BzIiwiZXhwIjo0NDIwMCwiaWF0IjoxMDAwfQ" ++
    ".cO_MHAqhUj5QEFYB5xA34lGFalttujFri1mAD1O1tCA"

/-- A signer of one token. -/
def opsSigner : AdminTokenSigner where
  encode claims := if claims = sessionClaims opsUser 1000 then .ok opsToken else .error "unused"
  verify now token :=
    if token = opsToken ∧ now ≤ 44260 then some (sessionClaims opsUser 1000) else none

theorem opsSigner_honest : opsSigner.Honest := by
  intro claims token now h
  simp only [opsSigner] at h ⊢
  split at h
  · rename_i hclaims
    cases h
    subst hclaims
    simp only [true_and]
    rfl
  · cases h

def disabledApp : AdminApp where
  config := ⟨"", false⟩
  env _ := none
  rootToken := none
  booted := rfl
  signer := opsSigner
  hashPassword _ _ := .ok opsPhc
  verifyPassword password phc := .ok (decide (password = "hunter2" ∧ phc = opsPhc))

def opsState : AdminState := ⟨(∅ : AdminUsers).insert "u1" opsUser, []⟩

def opsLogin : AdminRequest := .login 1000000 [("u1", opsUser)] "ops" "hunter2"

def opsOther : AdminRequest := .other 1000000 [("authorization", asBytes ("Bearer " ++ opsToken))]

def opsRun : List AdminRequest := [opsLogin, opsOther]

theorem verify_opsToken :
    disabledApp.signer.verify (1000000 / 1000) opsToken = some (sessionClaims opsUser 1000) := by
  simp [disabledApp, opsSigner]

theorem extractBearer_opsToken :
    extractBearer [("authorization", asBytes ("Bearer " ++ opsToken))] = some opsToken := by
  decide +kernel

theorem opsState_iterates : HashMap.Iterates opsState.admins [("u1", opsUser)] := by
  unfold HashMap.Iterates
  decide +kernel

theorem opsState_signed : Signed disabledApp opsState :=
  fun _ _ hmem => absurd hmem List.not_mem_nil

theorem opsRun_genuine : Along (adminStep disabledApp) (Genuine disabledApp) opsState opsRun := by
  refine ⟨opsState_iterates, ?_, trivial⟩
  intro token claims hbearer _
  have htoken : token = opsToken :=
    (Option.some.inj (extractBearer_opsToken.symm.trans hbearer)).symm
  subst htoken
  exact ⟨sessionClaims opsUser 1000, List.mem_singleton.mpr rfl⟩

theorem run_followsConfig_ops :
    ¬Along (adminStep disabledApp) (Harmless disabledApp) opsState opsRun ∧
      (Along (adminStep disabledApp) (FollowsConfig disabledApp) opsState opsRun ↔
        Along (adminStep disabledApp) (Harmless disabledApp) opsState opsRun) := by
  refine ⟨?_, run_followsConfig_iff disabledApp opsSigner_honest opsState opsState_signed opsRun
    opsRun_genuine⟩
  rintro ⟨hlogin, -⟩
  exact hlogin rfl ⟨opsUser, opsToken, rfl, rfl, rfl⟩

/-- The stored user logs in with both switches off, and the token opens the Admin API. -/
theorem disabled_admin_opens :
    readAdminToken disabledApp.env disabledApp.config = .ok none ∧
      disabledApp.config.passwordLogin = false ∧
      Along (adminStep disabledApp) (Genuine disabledApp) opsState opsRun ∧
      (adminHandle disabledApp opsState opsLogin).1 =
        .loggedIn (.ok ⟨opsToken, "ops", 44200⟩) ∧
      granted disabledApp opsOther = some (.user "u1" "ops") ∧
      ¬Along (adminStep disabledApp) (FollowsConfig disabledApp) opsState opsRun := by
  have hprincipal : adminPrincipal disabledApp 1000000
      [("authorization", asBytes ("Bearer " ++ opsToken))] = .ok (.user "u1" "ops") :=
    adminPrincipal_of_token disabledApp rfl extractBearer_opsToken verify_opsToken
  have hother : granted disabledApp opsOther = (adminPrincipal disabledApp 1000000
      [("authorization", asBytes ("Bearer " ++ opsToken))]).toOption := rfl
  have hgranted : granted disabledApp opsOther = some (.user "u1" "ops") := by
    rw [hother, hprincipal]
    rfl
  refine ⟨rfl, rfl, opsRun_genuine, rfl, hgranted, ?_⟩
  rintro ⟨-, hfollows, -⟩
  cases hgranted.symm.trans (hfollows.disabled rfl)

end AiGateway.Api
