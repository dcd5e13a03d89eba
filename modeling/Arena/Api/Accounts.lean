/-
Accounts and their sessions (`auth.service.ts`).

Logins, refreshes and logouts run side by side, statement by statement: a statement of the database or of Redis may
fail, and its reply may get lost. Bots are created, avatars change and an admin may run the question sync, which upserts
the admin account, in between. A refresh token may expire at any time.

`AuthRules` is what lies outside the service: the nickname rules and the text operations under them, SHA-256, and the
configuration. `spent` lists the tokens that a deletion has found. It is not part of the program's state, and no step
reads it.

- `Earned`: how a session descends from a login;
- `step_accountsInv`: every step keeps accounts and sessions in order;
- `sessions_are_earned`: over every run with fresh tokens.
-/
import Arena.GameCore.Engines
import Arena.Lib.JsArray
import Arena.Lib.Run

namespace Arena.Api

open Arena.Lib Arena.GameCore

/-! ## Model -/

inductive Role where
  | guest | admin
deriving DecidableEq, Repr

structure UserRow where
  id : ℕ
  username : String
  guestId : Option String
  role : Role
  avatar : String
deriving DecidableEq, Repr

def isAscii (s : String) : Prop := ∀ c ∈ s.toList, c.toNat < 128

structure AuthRules where
  sanitizeNickname : String → Option String
  nfkd : String → String
  isMark : Char → Bool
  toLowerCase : String → String
  sha256 : String → ℕ
  adminPassword : Option String
  nodeEnv : Option String
  nfkd_ascii : ∀ s, isAscii s → nfkd s = s
  isMark_ascii : ∀ c : Char, c.toNat < 128 → isMark c = false
  toLowerCase_ascii : ∀ s, isAscii s → toLowerCase s = s.toLower

def avatarSeeds : List String :=
  ["jellyfrog", "dario", "dentist", "nyakoshigure", "slavik", "tux", "yellingdario", "yorhasit2b", "airring",
    "ask-jeeves", "azure", "broom-belle", "capy-2", "cinder", "clawd", "clippy", "da-zhuang", "dev", "dewdrop",
    "doodlebob", "dude", "duo", "einstein", "esheep64", "finderguy", "fine-pup", "goblin-goods", "goblin", "goose",
    "kwehlet", "mini-sama", "miss-minute", "pc-guy", "pope-amodei", "rubick", "sumi", "super-piglet", "theo", "thragg",
    "tibo", "tom", "totoro"]

def isValidAvatarSeed (seed : String) : Bool := avatarSeeds.contains seed

def defaultAvatarSeed : String := "jellyfrog"

def fixedAdminUsername : String := "admin"

namespace AuthRules

variable (A : AuthRules)

def baseNormalize (value : String) : String :=
  A.toLowerCase (String.ofList (((A.nfkd value).toList.filter fun c => !A.isMark c).filter fun c =>
    !(isJsSpace c || c = '_' || c = '-' || c = '*')))

/-- `RESERVED_USERNAMES.includes(normalizeReservedUsername(…))` -/
def isReserved (username : String) : Bool := ["admin"].contains (A.baseNormalize username)

def constantTimeCompare (a b : String) : Bool := A.sha256 a = A.sha256 b

def isRejectedAdminPassword (password : String) : Bool :=
  ["arena100admin", "change-me-admin-password"].contains password

/-- the checks of `adminLogin` before it looks for the account -/
def checkAdminPassword (password : String) : Bool :=
  match A.adminPassword with
  | none => false
  | some adminPassword =>
    12 ≤ (utf16 adminPassword).length &&
      (A.nodeEnv = some "development" || A.nodeEnv = some "test" || !isRejectedAdminPassword adminPassword) &&
      password ≠ "" && A.constantTimeCompare password adminPassword

end AuthRules

inductive AuthRequest where
  | guestLogin (username : String) (guestSecret avatar : Option String)
  | adminLogin (password : String)
  | refreshAccessToken (refreshToken : String)
  | logout (refreshToken : String)
deriving DecidableEq, Repr

/-- the statement a call waits for -/
inductive AuthStage where
  | findUser (username : String)
  | createUser (username : String)
  | findCreated (username : String)
  | updateAvatar (user : UserRow) (avatar : String)
  | invalidateLeaderboardCache (user : UserRow)
  | findAdmin
  | createAdmin
  | findCreatedAdmin
  | getToken (refreshToken : String)
  | findTokenUser (refreshToken : String) (userId : ℕ)
  | delToken (refreshToken : String) (user : UserRow)
  /-- `generateTokens` stores the refresh token -/
  | setToken (user : UserRow) (refreshToken : String)
  | delLogout (refreshToken : String)
  | returned
  | threw
deriving DecidableEq, Repr

/-- whether `generateTokens` may have been called -/
def AuthStage.isLate : AuthStage → Bool
  | .setToken .. | .returned | .threw => true
  | _ => false

structure AuthCall where
  request : AuthRequest
  stage : AuthStage
  /-- the account the call has created: `isNewUser` -/
  created : Option ℕ
  /-- the account and the refresh token of its `generateTokens` -/
  session : Option (UserRow × String)
deriving DecidableEq, Repr

structure Accounts where
  users : List UserRow
  /-- the keys `refresh:<token>` -/
  tokens : List (String × ℕ)
  calls : List AuthCall
  spent : List String
deriving DecidableEq, Repr

inductive AuthReply where
  | ok
  | fails
  /-- the statement is executed, and the caller gets an error -/
  | lost
deriving DecidableEq, Repr

inductive AccountsOp where
  | call (request : AuthRequest)
  /-- the next statement of a call; the strings are what `nanoid` returns -/
  | next (i : ℕ) (reply : AuthReply) (secret token : String)
  | expire (token : String)
  | createBot (namePrefix suffix : String) (number : ℕ) (guestId avatar : String)
  | updateMyAvatar (userId : ℕ) (avatar : String)
  | syncQuestions

namespace Accounts

def init : Accounts := ⟨[], [], [], []⟩

def findByName (s : Accounts) (username : String) : Option UserRow := s.users.find? fun u => u.username = username

def findById (s : Accounts) (id : ℕ) : Option UserRow := s.users.find? fun u => u.id = id

def lookup (s : Accounts) (token : String) : Option ℕ := (s.tokens.find? fun e => e.1 = token).map Prod.snd

/-- a new row, unless its name or its guest id is taken (P2002) -/
def create (s : Accounts) (username guestId : String) (role : Role) (avatar : String) : Option (Accounts × UserRow) :=
  if s.users.any fun u => u.username = username || u.guestId = some guestId then none
  else
    let row := ⟨s.users.length, username, some guestId, role, avatar⟩
    some ({ s with users := s.users ++ [row] }, row)

def setAvatar (s : Accounts) (id : ℕ) (avatar : String) : Accounts :=
  { s with users := s.users.map fun u => if u.id = id then { u with avatar := avatar } else u }

def set (s : Accounts) (token : String) (userId : ℕ) : Accounts :=
  { s with tokens := s.tokens.filter (fun e => e.1 ≠ token) ++ [(token, userId)] }

def del (s : Accounts) (token : String) : Accounts :=
  { s with
    tokens := s.tokens.filter fun e => e.1 ≠ token
    spent := if (s.lookup token).isSome then s.spent ++ [token] else s.spent }

def setCall (s : Accounts) (i : ℕ) (c : AuthCall) : Accounts := { s with calls := s.calls.set i c }

/-- `generateTokens` -/
def generateTokens (c : AuthCall) (user : UserRow) (token : String) : AuthCall :=
  { c with stage := .setToken user token, session := some (user, token) }

def fail (c : AuthCall) : AuthCall := { c with stage := .threw }

/-- `guestLogin` with the account it has found or created -/
def admitGuest (A : AuthRules) (c : AuthCall) (user : Option UserRow) (token : String) : AuthCall :=
  match c.request, user with
  | .guestLogin _ guestSecret avatar, some user =>
    if user.role ≠ .guest then fail c
    else if c.created.isSome then generateTokens c user token
    else
      match user.guestId.filter (· ≠ ""), (guestSecret.map jsTrim).filter (· ≠ "") with
      | some guestId, some secret =>
        if A.constantTimeCompare guestId secret then
          match avatar with
          | some avatar =>
            if avatar ≠ "" ∧ isValidAvatarSeed avatar = true ∧ user.avatar ≠ avatar then
              { c with stage := .updateAvatar user avatar }
            else generateTokens c user token
          | none => generateTokens c user token
        else fail c
      | _, _ => fail c
  | _, _ => fail c

def admitAdmin (c : AuthCall) (user : Option UserRow) (token : String) : AuthCall :=
  match user with
  | some user => if user.role = .admin then generateTokens c user token else fail c
  | none => fail c

def chosenAvatar (c : AuthCall) : String :=
  match c.request with
  | .guestLogin _ _ (some avatar) => if avatar ≠ "" ∧ isValidAvatarSeed avatar = true then avatar else defaultAvatarSeed
  | _ => defaultAvatarSeed

def start (A : AuthRules) (request : AuthRequest) : AuthCall :=
  let stage : AuthStage := match request with
    | .guestLogin username _ _ =>
      match A.sanitizeNickname username with
      | none => .threw
      | some safeUsername => if A.isReserved safeUsername then .threw else .findUser safeUsername
    | .adminLogin password => if A.checkAdminPassword password then .findAdmin else .threw
    | .refreshAccessToken refreshToken => .getToken refreshToken
    | .logout refreshToken => .delLogout refreshToken
  ⟨request, stage, none, none⟩

/-- the next statement of the `i`-th call, executed -/
def execute (A : AuthRules) (s : Accounts) (i : ℕ) (c : AuthCall) (secret token : String) : Accounts :=
  match c.stage with
  | .findUser username =>
    match s.findByName username with
    | none => s.setCall i { c with stage := .createUser username }
    | some user => s.setCall i (admitGuest A c (some user) token)
  | .createUser username =>
    match s.create username secret .guest (chosenAvatar c) with
    | none => s.setCall i { c with stage := .findCreated username }
    | some (s, user) => s.setCall i (admitGuest A { c with created := some user.id } (some user) token)
  | .findCreated username => s.setCall i (admitGuest A c (s.findByName username) token)
  | .updateAvatar user avatar =>
    let s := s.setAvatar user.id avatar
    match s.findById user.id with
    | none => s.setCall i (fail c)
    | some user => s.setCall i { c with stage := .invalidateLeaderboardCache user }
  | .invalidateLeaderboardCache user => s.setCall i (generateTokens c user token)
  | .findAdmin =>
    match s.findByName fixedAdminUsername with
    | none => s.setCall i { c with stage := .createAdmin }
    | some user => s.setCall i (admitAdmin c (some user) token)
  | .createAdmin =>
    match s.create fixedAdminUsername secret .admin defaultAvatarSeed with
    | none => s.setCall i { c with stage := .findCreatedAdmin }
    | some (s, user) => s.setCall i (admitAdmin c (some user) token)
  | .findCreatedAdmin => s.setCall i (admitAdmin c (s.findByName fixedAdminUsername) token)
  | .getToken refreshToken =>
    match s.lookup refreshToken with
    | none => s.setCall i (fail c)
    | some userId => s.setCall i { c with stage := .findTokenUser refreshToken userId }
  | .findTokenUser refreshToken userId =>
    match s.findById userId with
    | none => s.setCall i (fail c)
    | some user => s.setCall i { c with stage := .delToken refreshToken user }
  | .delToken refreshToken user => (s.del refreshToken).setCall i (generateTokens c user token)
  | .setToken user refreshToken => (s.set refreshToken user.id).setCall i { c with stage := .returned }
  | .delLogout refreshToken => (s.del refreshToken).setCall i { c with stage := .returned }
  | .returned => s
  | .threw => s

/-- the reply to it: an error of the leaderboard cache is logged, and any other is thrown -/
def next (A : AuthRules) (s : Accounts) (i : ℕ) (c : AuthCall) (reply : AuthReply) (secret token : String) : Accounts :=
  match c.stage, reply with
  | .invalidateLeaderboardCache _, _ | .returned, _ | .threw, _ | _, .ok => s.execute A i c secret token
  | _, .fails => s.setCall i (fail c)
  | _, .lost => (s.execute A i c secret token).setCall i (fail c)

def step (A : AuthRules) (s : Accounts) : AccountsOp → Accounts
  | .call request => { s with calls := s.calls ++ [start A request] }
  | .next i reply secret token =>
    match s.calls[i]? with
    | some c => s.next A i c reply secret token
    | none => s
  | .expire token => { s with tokens := s.tokens.filter fun e => e.1 ≠ token }
  | .createBot namePrefix suffix number guestId avatar =>
    match s.create (namePrefix ++ "_" ++ suffix ++ "_" ++ toString number) guestId .guest avatar with
    | some (s, _) => s
    | none => s
  | .updateMyAvatar userId avatar => s.setAvatar userId avatar
  | .syncQuestions =>
    match s.findByName "admin" with
    | some _ => { s with users := s.users.map fun u => if u.username = "admin" then { u with role := .admin } else u }
    | none => { s with users := s.users ++ [⟨s.users.length, "admin", none, .admin, defaultAvatarSeed⟩] }

/-! ## Statements -/

/-- how a session has begun -/
inductive Root where
  | signUp | guestSecret | adminPassword
deriving DecidableEq, Repr

/-- a guest login that has created the account or presents its secret -/
def ProvesGuest (A : AuthRules) (c : AuthCall) (user : UserRow) : Prop :=
  c.created = some user.id ∨
    ∃ username secret avatar guestId, c.request = .guestLogin username (some secret) avatar ∧
      user.guestId = some guestId ∧ A.constantTimeCompare guestId (jsTrim secret) = true

/-- how a session of the account with this token descends from a login -/
inductive Earned (A : AuthRules) (s : Accounts) : Root → String → ℕ → Prop where
  | signUp (c : AuthCall) (hc : c ∈ s.calls) (user : UserRow) (token : String) (hs : c.session = some (user, token))
      (hr : user.role = .guest) (hn : c.created = some user.id) : Earned A s .signUp token user.id
  | guestSecret (c : AuthCall) (hc : c ∈ s.calls) (user : UserRow) (token : String)
      (hs : c.session = some (user, token)) (hr : user.role = .guest) (username secret : String)
      (avatar : Option String) (guestId : String) (hq : c.request = .guestLogin username (some secret) avatar)
      (hg : user.guestId = some guestId) (hp : A.constantTimeCompare guestId (jsTrim secret) = true) :
      Earned A s .guestSecret token user.id
  | adminPassword (c : AuthCall) (hc : c ∈ s.calls) (user : UserRow) (token : String)
      (hs : c.session = some (user, token)) (password : String) (hq : c.request = .adminLogin password)
      (hp : A.checkAdminPassword password = true) (hn : user.username = "admin") :
      Earned A s .adminPassword token user.id
  | refreshed (r : Root) (c : AuthCall) (hc : c ∈ s.calls) (user : UserRow) (token old : String)
      (hs : c.session = some (user, token)) (hq : c.request = .refreshAccessToken old)
      (hold : Earned A s r old user.id) : Earned A s r token user.id

/-- a row of the account, as it was when it was read -/
structure Known (s : Accounts) (user : UserRow) : Prop where
  row : ∃ row ∈ s.users, row.id = user.id ∧ row.username = user.username ∧ row.guestId = user.guestId
  admin : user.role = .admin ↔ user.username = "admin"

/-- the token is new -/
def FreshToken (s : Accounts) (token : String) : Prop :=
  ∀ c ∈ s.calls, ∀ user t, c.session = some (user, t) → t ≠ token

instance (s : Accounts) (token : String) : Decidable (s.FreshToken token) :=
  decidable_of_iff (∀ c ∈ s.calls, ∀ e ∈ c.session, e.2 ≠ token)
    ⟨fun h c hc user t hs => h c hc (user, t) hs, fun h c hc e he => h c hc e.1 e.2 he⟩

/-- `nanoid` does not return a token twice -/
def Fresh (s : Accounts) : AccountsOp → Prop
  | .next _ _ _ token => s.FreshToken token
  | _ => True

instance (s : Accounts) : DecidablePred s.Fresh
  | .next _ _ _ token => inferInstanceAs (Decidable (s.FreshToken token))
  | .call _ | .expire _ | .createBot .. | .updateMyAvatar .. | .syncQuestions => .isTrue trivial

/-- what a call that waits has made sure of -/
def StageInv (A : AuthRules) (s : Accounts) (c : AuthCall) : Prop :=
  match c.stage with
  | .findUser username | .createUser username | .findCreated username =>
    A.isReserved username = false ∧ c.created = none
  | .updateAvatar user _ | .invalidateLeaderboardCache user =>
    s.Known user ∧ user.role = .guest ∧ ProvesGuest A c user
  | .findAdmin | .createAdmin | .findCreatedAdmin =>
    ∃ password, c.request = .adminLogin password ∧ A.checkAdminPassword password = true
  | .getToken token => c.request = .refreshAccessToken token
  | .findTokenUser token userId => c.request = .refreshAccessToken token ∧ ∃ r, Earned A s r token userId
  | .delToken token user =>
    c.request = .refreshAccessToken token ∧ s.Known user ∧ ∃ r, Earned A s r token user.id
  | .setToken user token => c.session = some (user, token)
  | .delLogout _ | .returned | .threw => True

structure UsersInv (users : List UserRow) : Prop where
  ids : ∀ (i : ℕ) (row : UserRow), users[i]? = some row → row.id = i
  names : (users.map UserRow.username).Nodup
  admin : ∀ row ∈ users, row.role = .admin ↔ row.username = "admin"

structure AccountsInv (A : AuthRules) (s : Accounts) : Prop where
  users : UsersInv s.users
  stages : ∀ c ∈ s.calls, StageInv A s c
  early : ∀ c ∈ s.calls, c.stage.isLate = false → c.session = none
  sessions : ∀ c ∈ s.calls, ∀ user token, c.session = some (user, token) →
    s.Known user ∧ ∃ r, Earned A s r token user.id
  tokens : ∀ e ∈ s.tokens, ∃ r, Earned A s r e.1 e.2
  generated : ∀ token, token ∈ s.tokens.map Prod.fst ∨ token ∈ s.spent →
    ∃ c ∈ s.calls, ∃ user, c.session = some (user, token)
  apart : ∀ (i j : ℕ) (c d : AuthCall) (u v : UserRow) (token : String), s.calls[i]? = some c →
    s.calls[j]? = some d → c.session = some (u, token) → d.session = some (v, token) → i = j
  unset : ∀ c ∈ s.calls, ∀ user token, c.stage = .setToken user token →
    token ∉ s.tokens.map Prod.fst ∧ token ∉ s.spent
  spent : ∀ token ∈ s.spent, token ∉ s.tokens.map Prod.fst

/-! ## What stays -/

/-- accounts keep their names and secrets, and what is spent stays spent -/
structure Keeps (s s' : Accounts) : Prop where
  users : ∀ row ∈ s.users, ∃ row' ∈ s'.users,
    row'.id = row.id ∧ row'.username = row.username ∧ row'.guestId = row.guestId
  spent : ∀ token ∈ s.spent, token ∈ s'.spent

/-- accounts keep their names and secrets, and calls their sessions -/
structure Grows (s s' : Accounts) : Prop where
  users : ∀ row ∈ s.users, ∃ row' ∈ s'.users,
    row'.id = row.id ∧ row'.username = row.username ∧ row'.guestId = row.guestId
  calls : ∀ c ∈ s.calls, c.session ≠ none →
    ∃ c' ∈ s'.calls, c'.session = c.session ∧ c'.request = c.request ∧ c'.created = c.created

variable {A : AuthRules} {s s' : Accounts} {i : ℕ} {c c' : AuthCall}

theorem Keeps.refl (s : Accounts) : Keeps s s := ⟨fun row hrow => ⟨row, hrow, rfl, rfl, rfl⟩, fun _ ht => ht⟩

theorem Keeps.trans {s₀ : Accounts} (h : Keeps s₀ s) (h' : Keeps s s') : Keeps s₀ s' where
  users row hrow := by
    obtain ⟨row₁, hrow₁, hid₁, hname₁, hguest₁⟩ := h.users row hrow
    obtain ⟨row₂, hrow₂, hid₂, hname₂, hguest₂⟩ := h'.users row₁ hrow₁
    exact ⟨row₂, hrow₂, hid₂.trans hid₁, hname₂.trans hname₁, hguest₂.trans hguest₁⟩
  spent t ht := h'.spent t (h.spent t ht)

theorem Known.mono (hg : Grows s s') {user : UserRow} (h : s.Known user) : s'.Known user := by
  obtain ⟨row, hrow, hid, hname, hguest⟩ := h.row
  obtain ⟨row', hrow', hid', hname', hguest'⟩ := hg.users row hrow
  exact ⟨⟨row', hrow', hid'.trans hid, hname'.trans hname, hguest'.trans hguest⟩, h.admin⟩

theorem Earned.mono (hg : Grows s s') {r : Root} {token : String} {userId : ℕ} (h : Earned A s r token userId) :
    Earned A s' r token userId := by
  induction h with
  | signUp c hc user token hs hr hn =>
    obtain ⟨c', hc', hs', hq', hn'⟩ := hg.calls c hc (by simp [hs])
    exact .signUp c' hc' user token (hs'.trans hs) hr (hn'.trans hn)
  | guestSecret c hc user token hs hr username secret avatar guestId hq hguest hp =>
    obtain ⟨c', hc', hs', hq', -⟩ := hg.calls c hc (by simp [hs])
    exact .guestSecret c' hc' user token (hs'.trans hs) hr username secret avatar guestId (hq'.trans hq) hguest hp
  | adminPassword c hc user token hs password hq hp hn =>
    obtain ⟨c', hc', hs', hq', -⟩ := hg.calls c hc (by simp [hs])
    exact .adminPassword c' hc' user token (hs'.trans hs) password (hq'.trans hq) hp hn
  | refreshed r c hc user token old hs hq _ ih =>
    obtain ⟨c', hc', hs', hq', -⟩ := hg.calls c hc (by simp [hs])
    exact .refreshed r c' hc' user token old (hs'.trans hs) (hq'.trans hq) ih

theorem StageInv.mono (hg : Grows s s') (h : StageInv A s c) : StageInv A s' c := by
  unfold StageInv at h ⊢
  split at h
  · exact h
  · exact h
  · exact h
  · exact ⟨h.1.mono hg, h.2⟩
  · exact ⟨h.1.mono hg, h.2⟩
  · exact h
  · exact h
  · exact h
  · exact h
  · exact ⟨h.1, h.2.imp fun r hr => hr.mono hg⟩
  · exact ⟨h.1, h.2.1.mono hg, h.2.2.imp fun r hr => hr.mono hg⟩
  · exact h
  · trivial
  · trivial
  · trivial

/-! ## Accounts -/

/-- an invariant state with other accounts: they grow, and the rest stays -/
theorem AccountsInv.withUsers (h : AccountsInv A s) {users : List UserRow} (hu : UsersInv users)
    (hgrow : ∀ row ∈ s.users, ∃ row' ∈ users,
      row'.id = row.id ∧ row'.username = row.username ∧ row'.guestId = row.guestId) :
    AccountsInv A { s with users := users } ∧ Keeps s { s with users := users } := by
  have hg : Grows s { s with users := users } := ⟨hgrow, fun c hc _ => ⟨c, hc, rfl, rfl, rfl⟩⟩
  refine ⟨?_, hgrow, fun _ ht => ht⟩
  exact ⟨hu, fun c hc => (h.stages c hc).mono hg, h.early,
    fun c hc user token hs => ⟨(h.sessions c hc user token hs).1.mono hg,
      (h.sessions c hc user token hs).2.imp fun r hr => hr.mono hg⟩,
    fun e he => (h.tokens e he).imp fun r hr => hr.mono hg, h.generated, h.apart, h.unset, h.spent⟩

theorem findByName_some {username : String} {user : UserRow} (h : s.findByName username = some user) :
    user ∈ s.users ∧ user.username = username :=
  ⟨List.mem_of_find?_eq_some h, by simpa using List.find?_some h⟩

theorem findById_some {id : ℕ} {user : UserRow} (h : s.findById id = some user) : user ∈ s.users ∧ user.id = id :=
  ⟨List.mem_of_find?_eq_some h, by simpa using List.find?_some h⟩

theorem AccountsInv.known (h : AccountsInv A s) {user : UserRow} (hu : user ∈ s.users) : s.Known user :=
  ⟨⟨user, hu, rfl, rfl, rfl⟩, h.users.admin user hu⟩

/-- two rows of one id are one -/
theorem UsersInv.inj {users : List UserRow} (h : UsersInv users) {a b : UserRow} (ha : a ∈ users) (hb : b ∈ users)
    (hid : a.id = b.id) : a = b := by
  obtain ⟨i, hi⟩ := List.mem_iff_getElem?.1 ha
  obtain ⟨j, hj⟩ := List.mem_iff_getElem?.1 hb
  have hij : i = j := (h.ids i a hi).symm.trans (hid.trans (h.ids j b hj))
  subst hij
  exact Option.some.inj (hi.symm.trans hj)

/-- rows that are changed in their role and avatar only -/
theorem UsersInv.map {users : List UserRow} (h : UsersInv users) (f : UserRow → UserRow)
    (hid : ∀ u, (f u).id = u.id) (hname : ∀ u, (f u).username = u.username)
    (hadmin : ∀ u ∈ users, ((f u).role = .admin ↔ u.username = "admin")) : UsersInv (users.map f) where
  ids i row hrow := by
    rw [List.getElem?_map] at hrow
    obtain ⟨u, hu, rfl⟩ := Option.map_eq_some_iff.1 hrow
    rw [hid]
    exact h.ids i u hu
  names := by
    have hmap : (users.map f).map UserRow.username = users.map UserRow.username := by
      rw [List.map_map]
      exact List.map_congr_left fun u _ => hname u
    rw [hmap]
    exact h.names
  admin row hrow := by
    obtain ⟨u, hu, rfl⟩ := List.mem_map.1 hrow
    rw [hname]
    exact hadmin u hu

theorem UsersInv.append {users : List UserRow} (h : UsersInv users) {row : UserRow} (hid : row.id = users.length)
    (hname : row.username ∉ users.map UserRow.username) (hadmin : row.role = .admin ↔ row.username = "admin") :
    UsersInv (users ++ [row]) where
  ids i u hu := by
    by_cases hi : i < users.length
    · rw [List.getElem?_append_left hi] at hu
      exact h.ids i u hu
    · rw [List.getElem?_append_right (not_lt.1 hi), List.getElem?_singleton] at hu
      split_ifs at hu with hz
      obtain rfl := Option.some.inj hu
      omega
  names := by
    rw [List.map_append, List.nodup_append]
    refine ⟨h.names, List.nodup_singleton _, ?_⟩
    rintro a ha b hb rfl
    exact hname (List.mem_singleton.1 hb ▸ ha)
  admin u hu := by
    rcases List.mem_append.1 hu with hu | hu
    · exact h.admin u hu
    · rw [List.mem_singleton.1 hu]
      exact hadmin

theorem create_inv (h : AccountsInv A s) {username guestId avatar : String} {role : Role} {t : Accounts} {row : UserRow}
    (hc : s.create username guestId role avatar = some (t, row)) (hr : role = .admin ↔ username = "admin") :
    (AccountsInv A t ∧ Keeps s t) ∧ t.calls = s.calls ∧ t.Known row := by
  unfold create at hc
  split_ifs at hc with hany
  obtain ⟨rfl, rfl⟩ := Prod.mk.inj (Option.some.inj hc)
  have hname : username ∉ s.users.map UserRow.username := by
    intro hmem
    obtain ⟨u, hu, hn⟩ := List.mem_map.1 hmem
    exact hany (List.any_eq_true.2 ⟨u, hu, by simp [hn]⟩)
  have husers : UsersInv (s.users ++ [⟨s.users.length, username, some guestId, role, avatar⟩]) :=
    h.users.append rfl hname hr
  have hinv := h.withUsers husers fun row hrow => ⟨row, List.mem_append_left _ hrow, rfl, rfl, rfl⟩
  exact ⟨hinv, rfl, hinv.1.known (List.mem_append_right _ (List.mem_singleton.2 rfl))⟩

theorem setAvatar_inv (h : AccountsInv A s) (id : ℕ) (avatar : String) :
    AccountsInv A (s.setAvatar id avatar) ∧ Keeps s (s.setAvatar id avatar) := by
  refine h.withUsers (h.users.map _ ?_ ?_ ?_) ?_
  · intro u
    split_ifs <;> rfl
  · intro u
    split_ifs <;> rfl
  · intro u hu
    split_ifs <;> exact h.users.admin u hu
  · intro row hrow
    refine ⟨_, List.mem_map.2 ⟨row, hrow, rfl⟩, ?_⟩
    split_ifs <;> exact ⟨rfl, rfl, rfl⟩

theorem syncQuestions_inv (h : AccountsInv A s) :
    AccountsInv A (s.step A .syncQuestions) ∧ Keeps s (s.step A .syncQuestions) := by
  simp only [step]
  split
  · refine h.withUsers (h.users.map _ ?_ ?_ ?_) ?_
    · intro u
      split_ifs <;> rfl
    · intro u
      split_ifs <;> rfl
    · intro u hu
      split_ifs with hn
      · exact iff_of_true rfl hn
      · exact h.users.admin u hu
    · intro row hrow
      refine ⟨_, List.mem_map.2 ⟨row, hrow, rfl⟩, ?_⟩
      split_ifs <;> exact ⟨rfl, rfl, rfl⟩
  · rename_i hnone
    refine h.withUsers (h.users.append rfl ?_ (iff_of_true rfl rfl)) fun row hrow =>
      ⟨row, List.mem_append_left _ hrow, rfl, rfl, rfl⟩
    intro hmem
    obtain ⟨u, hu, hn⟩ := List.mem_map.1 hmem
    have hfind := List.find?_eq_none.1 hnone u hu
    simp [hn] at hfind

/-! ## Calls -/

/-- what entitles a call to a session of the account -/
def Entitled (A : AuthRules) (s : Accounts) (c : AuthCall) (user : UserRow) : Prop :=
  (user.role = .guest ∧ ProvesGuest A c user) ∨
    (user.username = "admin" ∧ ∃ password, c.request = .adminLogin password ∧ A.checkAdminPassword password = true) ∨
    ∃ old, c.request = .refreshAccessToken old ∧ ∃ r, Earned A s r old user.id

/-- a call that goes on, with a session it is entitled to when it gets one -/
structure Goes (A : AuthRules) (s : Accounts) (token : String) (c c' : AuthCall) : Prop where
  request : c'.request = c.request
  keeps : c.session ≠ none → c'.session = c.session ∧ c'.created = c.created
  session : c'.session = c.session ∨ ∃ user, c'.session = some (user, token) ∧ s.Known user ∧ Entitled A s c' user
  early : c'.stage.isLate = false → c'.session = none
  stage : StageInv A s c'
  unset : ∀ user t, c'.stage = .setToken user t → t = token

theorem grows_setCall (hc : s.calls[i]? = some c) (hq : c'.request = c.request)
    (hk : c.session ≠ none → c'.session = c.session ∧ c'.created = c.created) : Grows s (s.setCall i c') where
  users row hrow := ⟨row, hrow, rfl, rfl, rfl⟩
  calls d hd hs := by
    obtain ⟨j, hj⟩ := List.mem_iff_getElem?.1 hd
    by_cases hij : i = j
    · subst hij
      obtain rfl : c = d := Option.some.inj (hc.symm.trans hj)
      have hi := (List.getElem?_eq_some_iff.1 hc).1
      exact ⟨c', List.mem_iff_getElem?.2 ⟨i, List.getElem?_set_self hi⟩, (hk hs).1, hq, (hk hs).2⟩
    · exact ⟨d, List.mem_iff_getElem?.2 ⟨j, (List.getElem?_set_ne hij).trans hj⟩, rfl, rfl, rfl⟩

theorem mem_setCall {d : AuthCall} (h : d ∈ (s.setCall i c').calls) : d ∈ s.calls ∨ d = c' :=
  List.mem_or_eq_of_mem_set h

/-- a session that the call is entitled to is earned -/
theorem Entitled.earned {user : UserRow} {token : String} (h : Entitled A s c user) (hc : c ∈ s'.calls)
    (hg : Grows s s') (hs : c.session = some (user, token)) : ∃ r, Earned A s' r token user.id := by
  rcases h with ⟨hr, hn | ⟨username, secret, avatar, guestId, hq, hguest, hp⟩⟩ | ⟨hn, password, hq, hp⟩ |
    ⟨old, hq, r, hold⟩
  · exact ⟨.signUp, .signUp c hc user token hs hr hn⟩
  · exact ⟨.guestSecret, .guestSecret c hc user token hs hr username secret avatar guestId hq hguest hp⟩
  · exact ⟨.adminPassword, .adminPassword c hc user token hs password hq hp hn⟩
  · exact ⟨r, .refreshed r c hc user token old hs hq (hold.mono hg)⟩

/-- a call goes on, and the tables stay -/
theorem AccountsInv.setCall (h : AccountsInv A s) (hc : s.calls[i]? = some c) {token : String}
    (hgo : Goes A s token c c') (hf : s.FreshToken token) : AccountsInv A (s.setCall i c') := by
  have hg : Grows s (s.setCall i c') := grows_setCall hc hgo.request hgo.keeps
  have hi := (List.getElem?_eq_some_iff.1 hc).1
  have hmem' : c' ∈ (s.setCall i c').calls := List.mem_iff_getElem?.2 ⟨i, List.getElem?_set_self hi⟩
  have hfresh : token ∉ s.tokens.map Prod.fst ∧ token ∉ s.spent := by
    constructor
    · intro ht
      obtain ⟨d, hd, user, hs⟩ := h.generated token (.inl ht)
      exact hf d hd user token hs rfl
    · intro ht
      obtain ⟨d, hd, user, hs⟩ := h.generated token (.inr ht)
      exact hf d hd user token hs rfl
  -- the session at an index is the one before, or the new one
  have hat : ∀ (j : ℕ) (d : AuthCall) (u : UserRow) (t : String), (s.setCall i c').calls[j]? = some d →
      d.session = some (u, t) → (∃ d₀, s.calls[j]? = some d₀ ∧ d₀.session = some (u, t)) ∨ (j = i ∧ t = token) := by
    intro j d u t hj hs
    by_cases hij : i = j
    · subst hij
      rw [show (s.setCall i c').calls[i]? = some c' from List.getElem?_set_self hi] at hj
      obtain rfl := Option.some.inj hj
      rcases hgo.session with hsame | ⟨user, hnew, -⟩
      · exact .inl ⟨c, hc, hsame.symm.trans hs⟩
      · rw [hnew] at hs
        exact .inr ⟨rfl, (Prod.mk.inj (Option.some.inj hs)).2.symm⟩
    · exact .inl ⟨d, (List.getElem?_set_ne hij).symm.trans hj, hs⟩
  refine ⟨h.users, ?_, ?_, ?_, fun e he => (h.tokens e he).imp fun r hr => hr.mono hg, ?_, ?_, ?_, h.spent⟩
  · intro d hd
    rcases mem_setCall hd with hd | rfl
    · exact (h.stages d hd).mono hg
    · exact hgo.stage.mono hg
  · intro d hd
    rcases mem_setCall hd with hd | rfl
    · exact h.early d hd
    · exact hgo.early
  · intro d hd user t hs
    have hold : ∀ d₀ ∈ s.calls, d₀.session = some (user, t) →
        (s.setCall i c').Known user ∧ ∃ r, Earned A (s.setCall i c') r t user.id := fun d₀ hd₀ hs₀ =>
      ⟨(h.sessions d₀ hd₀ user t hs₀).1.mono hg, (h.sessions d₀ hd₀ user t hs₀).2.imp fun r hr => hr.mono hg⟩
    rcases mem_setCall hd with hd | rfl
    · exact hold d hd hs
    · rcases hgo.session with hsame | ⟨user', hnew, hknown, hentitled⟩
      · exact hold c (List.mem_of_getElem? hc) (hsame.symm.trans hs)
      · rw [hnew] at hs
        obtain ⟨rfl, rfl⟩ := Prod.mk.inj (Option.some.inj hs)
        exact ⟨hknown.mono hg, hentitled.earned hmem' hg hnew⟩
  · intro t ht
    obtain ⟨d, hd, user, hs⟩ := h.generated t ht
    obtain ⟨d', hd', hs', -, -⟩ := hg.calls d hd (by simp [hs])
    exact ⟨d', hd', user, hs'.trans hs⟩
  · intro j k d e u v t hj hk hs hs'
    rcases hat j d u t hj hs with ⟨d₀, hj₀, hs₀⟩ | ⟨rfl, rfl⟩
    · rcases hat k e v t hk hs' with ⟨e₀, hk₀, hs₀'⟩ | ⟨rfl, rfl⟩
      · exact h.apart j k d₀ e₀ u v t hj₀ hk₀ hs₀ hs₀'
      · exact absurd rfl (hf d₀ (List.mem_of_getElem? hj₀) u t hs₀)
    · rcases hat k e v t hk hs' with ⟨e₀, hk₀, hs₀'⟩ | ⟨rfl, -⟩
      · exact absurd rfl (hf e₀ (List.mem_of_getElem? hk₀) v t hs₀')
      · rfl
  · intro d hd user t hs
    rcases mem_setCall hd with hd | rfl
    · exact h.unset d hd user t hs
    · rw [hgo.unset user t hs]
      exact hfresh

theorem goes_fail (c : AuthCall) (token : String) : Goes A s token c (fail c) where
  request := rfl
  keeps _ := ⟨rfl, rfl⟩
  session := .inl rfl
  early hl := by cases hl
  stage := trivial
  unset user t ht := by cases ht

theorem goes_returned (c : AuthCall) (token : String) : Goes A s token c { c with stage := .returned } where
  request := rfl
  keeps _ := ⟨rfl, rfl⟩
  session := .inl rfl
  early hl := by cases hl
  stage := trivial
  unset user t ht := by cases ht

theorem goes_generate (he : c.session = none) {user : UserRow} {token : String} (hk : s.Known user)
    (hentitled : Entitled A s c user) : Goes A s token c (generateTokens c user token) where
  request := rfl
  keeps hs := absurd he hs
  session := .inr ⟨user, rfl, hk, hentitled⟩
  early hl := by cases hl
  stage := rfl
  unset u t ht := by
    obtain ⟨-, rfl⟩ := AuthStage.setToken.inj ht
    rfl

theorem goes_stage (he : c.session = none) (token : String) {stage : AuthStage}
    (hs : StageInv A s { c with stage := stage }) (hl : ∀ user t, stage ≠ .setToken user t) :
    Goes A s token c { c with stage := stage } where
  request := rfl
  keeps _ := ⟨rfl, rfl⟩
  session := .inl rfl
  early _ := he
  stage := hs
  unset user t ht := absurd ht (hl user t)

/-! ## Tokens -/

theorem lookup_some {token : String} {userId : ℕ} (h : s.lookup token = some userId) : (token, userId) ∈ s.tokens := by
  obtain ⟨e, he, rfl⟩ := Option.map_eq_some_iff.1 h
  have hkey : e.1 = token := by simpa using List.find?_some he
  rw [← hkey]
  exact List.mem_of_find?_eq_some he

theorem lookup_none {token : String} : s.lookup token = none ↔ token ∉ s.tokens.map Prod.fst := by
  simp only [lookup, Option.map_eq_none_iff, List.find?_eq_none, decide_eq_true_eq, List.mem_map, not_exists, not_and]

theorem mem_keys_filter {l : List (String × ℕ)} {token t : String} :
    t ∈ (l.filter fun e => e.1 ≠ token).map Prod.fst ↔ t ∈ l.map Prod.fst ∧ t ≠ token := by
  simp only [List.mem_map, List.mem_filter, decide_eq_true_eq]
  constructor
  · rintro ⟨e, ⟨he, hne⟩, rfl⟩
    exact ⟨⟨e, he, rfl⟩, hne⟩
  · rintro ⟨⟨e, he, rfl⟩, hne⟩
    exact ⟨e, ⟨he, hne⟩, rfl⟩

/-- a token goes, and is spent when a deletion has found it -/
theorem AccountsInv.remove (h : AccountsInv A s) (token : String) {spent : List String}
    (hs : ∀ t ∈ spent, t ∈ s.spent ∨ (t = token ∧ token ∈ s.tokens.map Prod.fst)) :
    AccountsInv A { s with tokens := s.tokens.filter (fun e => e.1 ≠ token), spent := spent } := by
  have hg : Grows s { s with tokens := s.tokens.filter (fun e => e.1 ≠ token), spent := spent } :=
    ⟨fun row hrow => ⟨row, hrow, rfl, rfl, rfl⟩, fun c hc _ => ⟨c, hc, rfl, rfl, rfl⟩⟩
  refine ⟨h.users, fun c hc => (h.stages c hc).mono hg, h.early,
    fun c hc user t hs => ⟨(h.sessions c hc user t hs).1.mono hg,
      (h.sessions c hc user t hs).2.imp fun r hr => hr.mono hg⟩,
    fun e he => (h.tokens e (List.mem_filter.1 he).1).imp fun r hr => hr.mono hg, ?_, h.apart, ?_, ?_⟩
  · rintro t (ht | ht)
    · exact h.generated t (.inl (mem_keys_filter.1 ht).1)
    · rcases hs t ht with ht | ⟨rfl, ht⟩
      · exact h.generated t (.inr ht)
      · exact h.generated t (.inl ht)
  · intro c hc user t hst
    obtain ⟨hkeys, hspent⟩ := h.unset c hc user t hst
    refine ⟨fun ht => hkeys (mem_keys_filter.1 ht).1, fun ht => ?_⟩
    rcases hs t ht with ht | ⟨rfl, ht⟩
    · exact hspent ht
    · exact hkeys ht
  · intro t ht htk
    obtain ⟨hk, hne⟩ := mem_keys_filter.1 htk
    rcases hs t ht with ht | ⟨rfl, -⟩
    · exact h.spent t ht hk
    · exact hne rfl

theorem del_inv (h : AccountsInv A s) (token : String) : AccountsInv A (s.del token) ∧ Keeps s (s.del token) := by
  have hspent : ∀ t ∈ (s.del token).spent, t ∈ s.spent ∨ (t = token ∧ token ∈ s.tokens.map Prod.fst) := by
    intro t ht
    simp only [del] at ht
    split_ifs at ht with hl
    · rcases List.mem_append.1 ht with ht | ht
      · exact .inl ht
      · obtain ⟨userId, hu⟩ := Option.isSome_iff_exists.1 hl
        exact .inr ⟨List.mem_singleton.1 ht, List.mem_map.2 ⟨_, lookup_some hu, rfl⟩⟩
    · exact .inl ht
  refine ⟨h.remove token hspent, fun row hrow => ⟨row, hrow, rfl, rfl, rfl⟩, fun t ht => ?_⟩
  simp only [del]
  split_ifs
  · exact List.mem_append_left _ ht
  · exact ht

/-- the token of a session is stored -/
theorem AccountsInv.set (h : AccountsInv A s) {user : UserRow} {token : String} (hc : c ∈ s.calls)
    (hs : c.session = some (user, token)) (hspent : token ∉ s.spent)
    (hunset : ∀ d ∈ s.calls, ∀ u, d.stage ≠ .setToken u token) : AccountsInv A (s.set token user.id) := by
  have hg : Grows s (s.set token user.id) :=
    ⟨fun row hrow => ⟨row, hrow, rfl, rfl, rfl⟩, fun c hc _ => ⟨c, hc, rfl, rfl, rfl⟩⟩
  have hkeys : ∀ t, t ∈ (s.set token user.id).tokens.map Prod.fst → t ∈ s.tokens.map Prod.fst ∨ t = token := by
    intro t ht
    simp only [Accounts.set, List.map_append, List.mem_append, List.map_cons, List.map_nil, List.mem_singleton] at ht
    exact ht.imp_left fun ht => (mem_keys_filter.1 ht).1
  refine ⟨h.users, fun d hd => (h.stages d hd).mono hg, h.early,
    fun d hd u t hst => ⟨(h.sessions d hd u t hst).1.mono hg, (h.sessions d hd u t hst).2.imp fun r hr => hr.mono hg⟩,
    ?_, ?_, h.apart, ?_, ?_⟩
  · intro e he
    rcases List.mem_append.1 he with he | he
    · exact (h.tokens e (List.mem_filter.1 he).1).imp fun r hr => hr.mono hg
    · rw [List.mem_singleton.1 he]
      exact (h.sessions c hc user token hs).2.imp fun r hr => hr.mono hg
  · rintro t (ht | ht)
    · rcases hkeys t ht with ht | rfl
      · exact h.generated t (.inl ht)
      · exact ⟨c, hc, user, hs⟩
    · exact h.generated t (.inr ht)
  · intro d hd u t hst
    obtain ⟨hk, hsp⟩ := h.unset d hd u t hst
    refine ⟨fun ht => ?_, hsp⟩
    rcases hkeys t ht with ht | rfl
    · exact hk ht
    · exact hunset d hd u hst
  · intro t ht htk
    rcases hkeys t htk with hk | rfl
    · exact h.spent t ht hk
    · exact hspent ht

/-! ## Logins -/

theorem baseNormalize_admin (A : AuthRules) : A.baseNormalize "admin" = "admin" := by
  have hascii : isAscii "admin" := by
    unfold isAscii
    simp
  have hmarks : ("admin".toList.filter fun c => !A.isMark c) = "admin".toList := by
    refine List.filter_eq_self.2 fun c hc => ?_
    rw [A.isMark_ascii c (hascii c hc)]
    rfl
  have hseps : ("admin".toList.filter fun c => !(isJsSpace c || c = '_' || c = '-' || c = '*')) = "admin".toList := by
    decide
  rw [AuthRules.baseNormalize, A.nfkd_ascii _ hascii, hmarks, hseps, String.ofList_toList,
    A.toLowerCase_ascii "admin" hascii]
  change String.map Char.toLower "admin" = "admin"
  rw [← String.toList_inj, String.toList_map]
  decide

theorem guest_name {username : String} (h : A.isReserved username = false) : username ≠ "admin" := by
  rintro rfl
  rw [AuthRules.isReserved, baseNormalize_admin] at h
  exact absurd h (by decide)

/-- a call may note the account it has created before it goes on -/
theorem Goes.after {d : AuthCall} {token : String} (h : Goes A s token c' d) (he : c.session = none)
    (hq : c'.request = c.request) (he' : c'.session = none) : Goes A s token c d where
  request := h.request.trans hq
  keeps hs := absurd he hs
  session := h.session.imp_left fun hs => hs.trans (he'.trans he.symm)
  early := h.early
  stage := h.stage
  unset := h.unset

/-- a guest is admitted who has created the account or presents its secret -/
theorem goes_admitGuest (he : c.session = none) {user : Option UserRow} (hu : ∀ u, user = some u → s.Known u)
    (hn : ∀ id, c.created = some id → ∃ u, user = some u ∧ u.id = id) (token : String) :
    Goes A s token c (admitGuest A c user token) := by
  unfold admitGuest
  split
  · rename_i username guestSecret avatar user hreq
    have hk := hu user rfl
    split_ifs with hr hcr
    · exact goes_fail c token
    · obtain ⟨id, hid⟩ := Option.isSome_iff_exists.1 hcr
      obtain ⟨u, hsome, rfl⟩ := hn id hid
      obtain rfl := Option.some.inj hsome
      exact goes_generate he hk (.inl ⟨not_not.1 hr, .inl hid⟩)
    · split
      · rename_i guestId secret hguest hsecret
        have hg := (Option.filter_eq_some_iff.1 hguest).1
        obtain ⟨raw, hraw, rfl⟩ := Option.map_eq_some_iff.1 (Option.filter_eq_some_iff.1 hsecret).1
        split_ifs with hp
        · have hproves : ProvesGuest A c user := .inr ⟨username, raw, avatar, guestId, hraw ▸ hreq, hg, hp⟩
          have hgen : Goes A s token c (generateTokens c user token) :=
            goes_generate he hk (.inl ⟨not_not.1 hr, hproves⟩)
          split
          · split_ifs
            · exact goes_stage he token ⟨hk, not_not.1 hr, hproves⟩ (by simp)
            · exact hgen
          · exact hgen
        · exact goes_fail c token
      · exact goes_fail c token
  · exact goes_fail c token

theorem goes_admitAdmin (he : c.session = none) {user : Option UserRow} (hu : ∀ u, user = some u → s.Known u)
    {password : String} (hq : c.request = .adminLogin password) (hp : A.checkAdminPassword password = true)
    (token : String) : Goes A s token c (admitAdmin c user token) := by
  unfold admitAdmin
  split
  · rename_i user
    have hk := hu user rfl
    split_ifs with hr
    · exact goes_generate he hk (.inr (.inl ⟨hk.admin.1 hr, password, hq, hp⟩))
    · exact goes_fail c token
  · exact goes_fail c token

/-! ## Statements of a call -/

/-- what the next statement of a call does: other tables, the same calls, and a call that goes on -/
structure Executes (A : AuthRules) (s : Accounts) (i : ℕ) (token : String) (c : AuthCall) (t : Accounts) : Prop where
  split : ∃ s₁ c', t = s₁.setCall i c' ∧ s₁.calls = s.calls ∧ (AccountsInv A s₁ ∧ Keeps s s₁) ∧ Goes A s₁ token c c'

theorem executes_same (h : AccountsInv A s) {token : String} (hgo : Goes A s token c c') :
    Executes A s i token c (s.setCall i c') :=
  ⟨s, c', rfl, rfl, ⟨h, .refl s⟩, hgo⟩

/-- the row that an update returns is the one of the account -/
theorem AccountsInv.reread (h : AccountsInv A s) {user row : UserRow} (hk : s.Known user) (hrow : row ∈ s.users)
    (hid : row.id = user.id) (hr : user.role = .guest) : row.role = .guest ∧ row.guestId = user.guestId := by
  obtain ⟨old, hold, hid', hname, hguest⟩ := hk.row
  obtain rfl := h.users.inj hrow hold (hid.trans hid'.symm)
  refine ⟨?_, hguest⟩
  cases hrole : row.role with
  | guest => rfl
  | admin => rw [hk.admin.2 (hname ▸ (h.users.admin row hrow).1 hrole)] at hr; cases hr

theorem ProvesGuest.congr {user row : UserRow} (h : ProvesGuest A c user) (hid : row.id = user.id)
    (hg : row.guestId = user.guestId) : ProvesGuest A c row :=
  h.imp (fun hn => hid ▸ hn) fun ⟨username, secret, avatar, guestId, hq, hguest, hp⟩ =>
    ⟨username, secret, avatar, guestId, hq, hg.trans hguest, hp⟩

/-- **Step lemma of a call.** -/
theorem executes (h : AccountsInv A s) (hc : s.calls[i]? = some c) (secret token : String)
    (hlate : c.stage.isLate = false) : Executes A s i token c (s.execute A i c secret token) := by
  have hmem := List.mem_of_getElem? hc
  have he := h.early c hmem hlate
  have hstage := h.stages c hmem
  have hfound : ∀ username u, s.findByName username = some u → s.Known u := fun username u hu =>
    h.known (findByName_some hu).1
  unfold execute
  unfold StageInv at hstage
  split <;> rename_i hst <;> rw [hst] at hstage
  · rename_i username
    split
    · exact executes_same h (goes_stage he token hstage (by simp))
    · rename_i user hu
      refine executes_same h (goes_admitGuest he ?_ ?_ token)
      · rintro u ⟨⟩
        exact hfound _ _ hu
      · intro id hid
        rw [hstage.2] at hid
        cases hid
  · rename_i username
    split
    · exact executes_same h (goes_stage he token hstage (by simp))
    · rename_i t user hcreate
      have hadmin : Role.guest = .admin ↔ username = "admin" :=
        iff_of_false (by decide) (guest_name hstage.1)
      obtain ⟨hinv, hcalls, hk⟩ := create_inv h hcreate hadmin
      have hgo : Goes A t token { c with created := some user.id }
          (admitGuest A { c with created := some user.id } (some user) token) := by
        refine goes_admitGuest (c := { c with created := some user.id }) he ?_ ?_ token
        · rintro u ⟨⟩
          exact hk
        · rintro id ⟨⟩
          exact ⟨user, rfl, rfl⟩
      exact ⟨t, _, rfl, hcalls, hinv, hgo.after he rfl he⟩
  · rename_i username
    refine executes_same h (goes_admitGuest he (fun u hu => hfound _ _ hu) ?_ token)
    intro id hid
    rw [hstage.2] at hid
    cases hid
  · rename_i user avatar
    obtain ⟨hk, hr, hp⟩ := hstage
    have hinv := setAvatar_inv h user.id avatar
    have hk' : (s.setAvatar user.id avatar).Known user :=
      ⟨(hinv.2.users _ hk.row.choose_spec.1).imp fun row' hrow' => by
        obtain ⟨-, hid, hname, hguest⟩ := hk.row.choose_spec
        exact ⟨hrow'.1, hrow'.2.1.trans hid, hrow'.2.2.1.trans hname, hrow'.2.2.2.trans hguest⟩, hk.admin⟩
    dsimp only
    split
    · exact ⟨_, _, rfl, rfl, hinv, goes_fail c token⟩
    · rename_i row hrow
      obtain ⟨hrow, hid⟩ := findById_some hrow
      obtain ⟨hrole, hguest⟩ := hinv.1.reread hk' hrow hid hr
      exact ⟨_, _, rfl, rfl, hinv,
        goes_stage he token ⟨hinv.1.known hrow, hrole, hp.congr hid hguest⟩ (by simp)⟩
  · exact executes_same h (goes_generate he hstage.1 (.inl hstage.2))
  · obtain ⟨password, hq, hp⟩ := hstage
    split
    · exact executes_same h (goes_stage he token ⟨password, hq, hp⟩ (by simp))
    · rename_i user hu
      refine executes_same h (goes_admitAdmin he ?_ hq hp token)
      rintro u ⟨⟩
      exact hfound _ _ hu
  · obtain ⟨password, hq, hp⟩ := hstage
    split
    · exact executes_same h (goes_stage he token ⟨password, hq, hp⟩ (by simp))
    · rename_i t user hcreate
      obtain ⟨hinv, hcalls, hk⟩ := create_inv h hcreate (iff_of_true rfl rfl)
      refine ⟨t, _, rfl, hcalls, hinv, goes_admitAdmin he ?_ hq hp token⟩
      rintro u ⟨⟩
      exact hk
  · obtain ⟨password, hq, hp⟩ := hstage
    exact executes_same h (goes_admitAdmin he (fun u hu => hfound _ _ hu) hq hp token)
  · rename_i refreshToken
    split
    · exact executes_same h (goes_fail c token)
    · rename_i userId hlookup
      exact executes_same h (goes_stage he token ⟨hstage, h.tokens _ (lookup_some hlookup)⟩ (by simp))
  · rename_i refreshToken userId
    split
    · exact executes_same h (goes_fail c token)
    · rename_i user hu
      obtain ⟨hrow, rfl⟩ := findById_some hu
      exact executes_same h (goes_stage he token ⟨hstage.1, h.known hrow, hstage.2⟩ (by simp))
  · rename_i refreshToken user
    obtain ⟨hq, hk, r, hearned⟩ := hstage
    have hinv := del_inv h refreshToken
    have hg : Grows s (s.del refreshToken) :=
      ⟨fun row hrow => ⟨row, hrow, rfl, rfl, rfl⟩, fun d hd _ => ⟨d, hd, rfl, rfl, rfl⟩⟩
    exact ⟨_, _, rfl, rfl, hinv,
      goes_generate he (hk.mono hg) (.inr (.inr ⟨refreshToken, hq, r, hearned.mono hg⟩))⟩
  · rw [hst] at hlate
    cases hlate
  · exact ⟨_, _, rfl, rfl, del_inv h _, goes_returned c token⟩
  · rw [hst] at hlate
    cases hlate
  · rw [hst] at hlate
    cases hlate

/-- a refresh token is stored, and its call ends -/
theorem store_inv (h : AccountsInv A s) (hc : s.calls[i]? = some c) {user : UserRow} {token new : String}
    (hst : c.stage = .setToken user token) (hgo : Goes A s new c c') (hf : s.FreshToken new)
    (hlate : ∀ u t, c'.stage ≠ .setToken u t) :
    AccountsInv A ((s.set token user.id).setCall i c') ∧ Keeps s ((s.set token user.id).setCall i c') := by
  have hmem := List.mem_of_getElem? hc
  have hsession : c.session = some (user, token) := by
    have hstage := h.stages c hmem
    rw [StageInv, hst] at hstage
    exact hstage
  have hi := (List.getElem?_eq_some_iff.1 hc).1
  have hinv := h.setCall hc hgo hf
  have hmem' : c' ∈ (s.setCall i c').calls := List.mem_iff_getElem?.2 ⟨i, List.getElem?_set_self hi⟩
  refine ⟨hinv.set hmem' (((hgo.keeps (by simp [hsession])).1).trans hsession) (h.unset c hmem user token hst).2 ?_,
    fun row hrow => ⟨row, hrow, rfl, rfl, rfl⟩, fun _ ht => ht⟩
  intro d hd u hu
  obtain ⟨j, hj⟩ := List.mem_iff_getElem?.1 hd
  by_cases hij : i = j
  · subst hij
    rw [show (s.setCall i c').calls[i]? = some c' from List.getElem?_set_self hi] at hj
    obtain rfl := Option.some.inj hj
    exact hlate u token hu
  -- no other call has generated the token
  · have hj' : s.calls[j]? = some d := (List.getElem?_set_ne hij).symm.trans hj
    have hstage := h.stages d (List.mem_of_getElem? hj')
    rw [StageInv, hu] at hstage
    exact hij (h.apart i j c d user u token hc hj' hsession hstage)

theorem setCall_setCall (t : Accounts) (d d' : AuthCall) : (t.setCall i d).setCall i d' = t.setCall i d' := by
  simp only [setCall, List.set_set]

theorem Executes.inv {t : Accounts} {token : String} (hx : Executes A s i token c t) (hc : s.calls[i]? = some c)
    (hf : s.FreshToken token) : AccountsInv A t ∧ Keeps s t := by
  obtain ⟨s₁, c', rfl, hcalls, ⟨hinv, hkeeps⟩, hgo⟩ := hx.split
  have hf₁ : s₁.FreshToken token := by
    rw [FreshToken, hcalls]
    exact hf
  exact ⟨hinv.setCall (hcalls ▸ hc) hgo hf₁, hkeeps.users, hkeeps.spent⟩

/-- a call may fail after its statement is executed -/
theorem Executes.lost {t : Accounts} {token : String} (hx : Executes A s i token c t) :
    Executes A s i token c (t.setCall i (fail c)) := by
  obtain ⟨s₁, c', rfl, hcalls, hinv, -⟩ := hx.split
  exact ⟨s₁, fail c, setCall_setCall s₁ c' _, hcalls, hinv, goes_fail c token⟩

theorem execute_inv (h : AccountsInv A s) (hc : s.calls[i]? = some c) (secret : String) {token : String}
    (hf : s.FreshToken token) :
    (AccountsInv A (s.execute A i c secret token) ∧ Keeps s (s.execute A i c secret token)) ∧
      AccountsInv A ((s.execute A i c secret token).setCall i (fail c)) ∧
        Keeps s ((s.execute A i c secret token).setCall i (fail c)) := by
  have hfail := (executes_same h (goes_fail c token)).inv hc hf
  cases hlate : c.stage.isLate with
  | false =>
    have hx := executes h hc secret token hlate
    exact ⟨hx.inv hc hf, hx.lost.inv hc hf⟩
  | true =>
    unfold execute
    cases hst : c.stage with
    | setToken user t =>
      refine ⟨store_inv h hc hst (goes_returned c token) hf (by simp), ?_⟩
      rw [setCall_setCall]
      exact store_inv h hc hst (goes_fail c token) hf (by simp [fail])
    | returned => exact ⟨⟨h, .refl s⟩, hfail⟩
    | threw => exact ⟨⟨h, .refl s⟩, hfail⟩
    | _ => rw [hst] at hlate; cases hlate

theorem next_inv (h : AccountsInv A s) (hc : s.calls[i]? = some c) (reply : AuthReply) {secret token : String}
    (hf : s.FreshToken token) :
    AccountsInv A (s.next A i c reply secret token) ∧ Keeps s (s.next A i c reply secret token) := by
  have hx := execute_inv h hc secret hf
  unfold next
  split
  · exact hx.1
  · exact hx.1
  · exact hx.1
  · exact hx.1
  · exact (executes_same h (goes_fail c token)).inv hc hf
  · exact hx.2

/-! ## Runs -/

theorem start_stage (A : AuthRules) (s : Accounts) (request : AuthRequest) : StageInv A s (start A request) := by
  cases request with
  | guestLogin username guestSecret avatar =>
    simp only [start]
    split
    · trivial
    · split_ifs with hr
      · trivial
      · exact ⟨by simpa using hr, rfl⟩
  | adminLogin password =>
    simp only [start]
    split_ifs with hp
    · exact ⟨password, rfl, hp⟩
    · trivial
  | refreshAccessToken refreshToken => rfl
  | logout refreshToken => trivial

theorem start_unset (A : AuthRules) (request : AuthRequest) (user : UserRow) (token : String) :
    (start A request).stage ≠ .setToken user token := by
  cases request with
  | guestLogin username guestSecret avatar =>
    simp only [start]
    split
    · simp
    · split_ifs <;> simp
  | adminLogin password =>
    simp only [start]
    split_ifs <;> simp
  | refreshAccessToken refreshToken => simp [start]
  | logout refreshToken => simp [start]

theorem start_inv (h : AccountsInv A s) (request : AuthRequest) :
    AccountsInv A { s with calls := s.calls ++ [start A request] } := by
  have hg : Grows s { s with calls := s.calls ++ [start A request] } :=
    ⟨fun row hrow => ⟨row, hrow, rfl, rfl, rfl⟩, fun d hd _ => ⟨d, List.mem_append_left _ hd, rfl, rfl, rfl⟩⟩
  have hsession : (start A request).session = none := rfl
  have hat : ∀ (j : ℕ) (d : AuthCall) (u : UserRow) (t : String), (s.calls ++ [start A request])[j]? = some d →
      d.session = some (u, t) → s.calls[j]? = some d := by
    intro j d u t hj hs
    by_cases hlt : j < s.calls.length
    · rwa [List.getElem?_append_left hlt] at hj
    · rw [List.getElem?_append_right (not_lt.1 hlt), List.getElem?_singleton] at hj
      split_ifs at hj
      obtain rfl := Option.some.inj hj
      rw [hsession] at hs
      cases hs
  refine ⟨h.users, ?_, ?_, ?_, fun e he => (h.tokens e he).imp fun r hr => hr.mono hg, ?_, ?_, ?_, h.spent⟩
  · intro d hd
    rcases List.mem_append.1 hd with hd | hd
    · exact (h.stages d hd).mono hg
    · rw [List.mem_singleton.1 hd]
      exact start_stage A _ request
  · intro d hd hl
    rcases List.mem_append.1 hd with hd | hd
    · exact h.early d hd hl
    · rw [List.mem_singleton.1 hd]
      exact hsession
  · intro d hd user t hs
    rcases List.mem_append.1 hd with hd | hd
    · obtain ⟨hk, r, hr⟩ := h.sessions d hd user t hs
      exact ⟨hk.mono hg, r, hr.mono hg⟩
    · rw [List.mem_singleton.1 hd, hsession] at hs
      cases hs
  · intro t ht
    obtain ⟨d, hd, user, hs⟩ := h.generated t ht
    exact ⟨d, List.mem_append_left _ hd, user, hs⟩
  · intro j k d e u v t hj hk hs hs'
    exact h.apart j k d e u v t (hat j d u t hj hs) (hat k e v t hk hs') hs hs'
  · intro d hd user t hst
    rcases List.mem_append.1 hd with hd | hd
    · exact h.unset d hd user t hst
    · rw [List.mem_singleton.1 hd] at hst
      exact absurd hst (start_unset A request user t)

/-- a bot's name has an underscore -/
theorem botName (namePrefix suffix number : String) : namePrefix ++ "_" ++ suffix ++ "_" ++ number ≠ "admin" := by
  intro h
  have hmem : '_' ∈ (namePrefix ++ "_" ++ suffix ++ "_" ++ number).toList := by simp
  rw [h] at hmem
  exact absurd hmem (by decide)

theorem step_accountsInv (o : AccountsOp) (hf : s.Fresh o) (h : AccountsInv A s) :
    AccountsInv A (s.step A o) ∧ Keeps s (s.step A o) := by
  cases o with
  | call request => exact ⟨start_inv h request, fun row hrow => ⟨row, hrow, rfl, rfl, rfl⟩, fun _ ht => ht⟩
  | next i reply secret token =>
    simp only [step]
    split
    · rename_i c hc
      exact next_inv h hc reply hf
    · exact ⟨h, .refl s⟩
  | expire token =>
    exact ⟨h.remove token fun t ht => .inl ht, fun row hrow => ⟨row, hrow, rfl, rfl, rfl⟩, fun _ ht => ht⟩
  | createBot namePrefix suffix number guestId avatar =>
    simp only [step]
    split
    · rename_i t user hcreate
      exact (create_inv h hcreate (iff_of_false (by decide) (botName _ _ _))).1
    · exact ⟨h, .refl s⟩
  | updateMyAvatar userId avatar => exact setAvatar_inv h userId avatar
  | syncQuestions => exact syncQuestions_inv h

theorem accountsInv_init (A : AuthRules) : AccountsInv A init where
  users := ⟨fun i row hrow => by simp [init] at hrow, List.nodup_nil, fun row hrow => absurd hrow List.not_mem_nil⟩
  stages c hc := absurd hc List.not_mem_nil
  early c hc := absurd hc List.not_mem_nil
  sessions c hc := absurd hc List.not_mem_nil
  tokens e he := absurd he List.not_mem_nil
  generated t ht := by rcases ht with ht | ht <;> exact absurd ht List.not_mem_nil
  apart i j c d u v t hj := by simp [init] at hj
  unset c hc := absurd hc List.not_mem_nil
  spent t ht := absurd ht List.not_mem_nil

theorem run_accountsInv (h : AccountsInv A s) (ops : List AccountsOp) (hf : Along (step A) Fresh s ops) :
    AccountsInv A (run (step A) s ops) ∧ Keeps s (run (step A) s ops) :=
  run_inv (step A) Fresh (fun t => AccountsInv A t ∧ Keeps s t)
    (fun _ o ho ht => ⟨(step_accountsInv o ho ht.1).1, ht.2.trans (step_accountsInv o ho ht.1).2⟩) s ops hf
    ⟨h, .refl s⟩

/-- a login that is not the admin's is for another account -/
theorem Earned.guest (h : AccountsInv A s) {r : Root} {token : String} {userId : ℕ} (he : Earned A s r token userId)
    (hr : r ≠ .adminPassword) : ∃ row ∈ s.users, row.id = userId ∧ row.username ≠ "admin" := by
  have hguest : ∀ c ∈ s.calls, ∀ user token, c.session = some (user, token) → user.role = .guest →
      ∃ row ∈ s.users, row.id = user.id ∧ row.username ≠ "admin" := by
    intro c hc user token hs hrole
    obtain ⟨hk, -⟩ := h.sessions c hc user token hs
    obtain ⟨row, hrow, hid, hname, -⟩ := hk.row
    refine ⟨row, hrow, hid, fun hadmin => ?_⟩
    rw [hk.admin.2 (hname ▸ hadmin)] at hrole
    cases hrole
  induction he with
  | signUp c hc user token hs hrole hn => exact hguest c hc user token hs hrole
  | guestSecret c hc user token hs hrole => exact hguest c hc user token hs hrole
  | adminPassword => exact absurd rfl hr
  | refreshed r c hc user token old hs hq hold ih => exact ih hr

/-- a session with the admin's role descends from the admin's password -/
theorem AccountsInv.admin_session (h : AccountsInv A s) (hc : c ∈ s.calls) {user : UserRow} {token : String}
    (hs : c.session = some (user, token)) (hr : user.role = .admin) : Earned A s .adminPassword token user.id := by
  obtain ⟨hk, r, he⟩ := h.sessions c hc user token hs
  by_cases hroot : r = .adminPassword
  · exact hroot ▸ he
  · obtain ⟨row, hrow, hid, hname⟩ := he.guest h hroot
    obtain ⟨row', hrow', hid', hname', -⟩ := hk.row
    obtain rfl := h.users.inj hrow hrow' (hid.trans hid'.symm)
    exact absurd (hname'.trans (hk.admin.1 hr)) hname

/-- **Sessions are earned.** In every interleaving of logins, refreshes and logouts, with statements that fail or whose
replies get lost, every refresh token that is stored or was given out descends through refreshes from a sign-up, from a
guest secret that was presented, or from the admin's password, for the same account; a session with the admin's role
descends from the admin's password. Usernames stay unique. From any state on, accounts keep their id, name, guest id and
role, and no later lookup finds a token that a deletion has found. -/
theorem sessions_are_earned (A : AuthRules) (ops : List AccountsOp) (hf : Along (step A) Fresh init ops) :
    let s := run (step A) init ops
    (∀ token userId, s.lookup token = some userId → ∃ r, Earned A s r token userId) ∧
      (∀ c ∈ s.calls, ∀ user token, c.session = some (user, token) →
        (∃ row ∈ s.users, row.id = user.id ∧ row.username = user.username ∧ row.guestId = user.guestId) ∧
          (∃ r, Earned A s r token user.id) ∧ (user.role = .admin → Earned A s .adminPassword token user.id)) ∧
      (s.users.map UserRow.username).Nodup ∧
      ∀ more, Along (step A) Fresh s more →
        (∀ row ∈ s.users, ∃ row' ∈ (run (step A) s more).users, row'.id = row.id ∧ row'.username = row.username ∧
          row'.guestId = row.guestId ∧ row'.role = row.role) ∧
          ∀ token ∈ s.spent, (run (step A) s more).lookup token = none := by
  intro s
  have h : AccountsInv A s := (run_accountsInv (accountsInv_init A) ops hf).1
  refine ⟨fun token userId hl => h.tokens _ (lookup_some hl), ?_, h.users.names, ?_⟩
  · intro c hc user token hs
    obtain ⟨hk, he⟩ := h.sessions c hc user token hs
    exact ⟨hk.row, he, h.admin_session hc hs⟩
  · intro more hmore
    obtain ⟨h', hkeeps⟩ := run_accountsInv h more hmore
    refine ⟨fun row hrow => ?_, fun token ht => lookup_none.2 (h'.spent token (hkeeps.spent token ht))⟩
    obtain ⟨row', hrow', hid, hname, hguest⟩ := hkeeps.users row hrow
    refine ⟨row', hrow', hid, hname, hguest, ?_⟩
    have hadmin : row'.role = .admin ↔ row.role = .admin := by
      rw [h'.users.admin row' hrow', h.users.admin row hrow, hname]
    cases hr : row.role with
    | admin => exact hadmin.2 hr
    | guest =>
      cases hr' : row'.role with
      | guest => rfl
      | admin => rw [hadmin.1 hr'] at hr; cases hr

/-- rules with a sum of character codes for a hash -/
def sampleRules : AuthRules where
  sanitizeNickname := some
  nfkd s := s
  isMark _ := false
  toLowerCase := String.toLower
  sha256 s := s.toList.foldl (fun n c => 1000 * n + c.toNat) 0
  adminPassword := none
  nodeEnv := none
  nfkd_ascii _ _ := rfl
  isMark_ascii _ _ := rfl
  toLowerCase_ascii _ _ := rfl

/-- a guest signs up; the token is refreshed, and then presented once more -/
def refreshTwice : List AccountsOp :=
  [.call (.guestLogin "ada" none none), .next 0 .ok "" "a", .next 0 .ok "secret" "b", .next 0 .ok "" "c",
    .call (.refreshAccessToken "b"), .next 1 .ok "" "d", .next 1 .ok "" "e", .next 1 .ok "" "f", .next 1 .ok "" "g",
    .call (.refreshAccessToken "b"), .next 2 .ok "" "h"]

theorem sessions_are_earned_refresh :
    let s := run (step sampleRules) init refreshTwice
    s.lookup "f" = some 0 ∧ (∃ r, Earned sampleRules s r "f" 0) ∧ (s.calls[2]?).map AuthCall.stage = some .threw ∧
      s.lookup "b" = none := by
  have hf : Along (step sampleRules) Fresh init refreshTwice := by decide +kernel
  have h := sessions_are_earned sampleRules refreshTwice hf
  refine ⟨by decide +kernel, h.1 "f" 0 (by decide +kernel), by decide +kernel, ?_⟩
  exact (h.2.2.2 [] trivial).2 "b" (by decide +kernel)

end Accounts

end Arena.Api
