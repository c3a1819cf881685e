import GPUardian.Gateway.Users
import GPUardian.Library.Interleaving

/-! Logins and password changes at a gateway. A login reads the user, checks the password
without the lock, reads the user again under it, and signs a session with the credential
version that a third read finds. Each read or save under the lock of the user store is one
step; any number of logins and password changes take theirs in any order. -/
namespace GPUardian

open GoStrings GoSlice Function Interleaving UserStore

def minPasswordBytes : Nat := 12
def maxPasswordBytes : Nat := 1024
def sessionTTL : Duration := 24 * 60 * 60 * second

structure PublicUser where
  username : String
  role : String
  createdAt : Time
  updatedAt : Time
deriving DecidableEq, Repr

def publicUser (user : UserRecord) : PublicUser :=
  { username := user.username, role := user.role, createdAt := user.createdAt,
    updatedAt := user.updatedAt }

def validatePassword (password : String) : Option String :=
  if trimSpace password = "" then some "password is required"
  else if byteLen password < minPasswordBytes then
    some s!"password must be at least {minPasswordBytes} bytes"
  else if maxPasswordBytes < byteLen password then
    some s!"password must be at most {maxPasswordBytes} bytes"
  else none

def setPassword (hash : String) (now : Time) (user : UserRecord) : UserRecord :=
  { user with passwordHash := hash, updatedAt := now }

/-- The row is the one whose password was checked. -/
def unchangedSince (candidate current : UserRecord) : Prop :=
  current.passwordHash = candidate.passwordHash ∧ current.updatedAt = candidate.updatedAt

instance (candidate current : UserRecord) : Decidable (unchangedSince candidate current) :=
  inferInstanceAs (Decidable (_ ∧ _))

def errInvalidLogin : String := "invalid username or password"
def errInvalidCurrentPassword : String := "current password is invalid"
def errUserNotFound : String := "user not found"

namespace UserStore

/-- The row that `authenticate` checks. Unlike the other lookups, it stops at a deleted row. -/
def loginCandidate (username : String) (store : UserStore) : Option UserRecord :=
  (store.users.find? (·.username == username)).filter (!·.disabled)

def savePassword (username hash : String) (write : FileWrite) (now : Time) (current : UserRecord)
    (store : UserStore) : UserStore × Except String PublicUser :=
  match store.saveLocked write (modifyFirst (names username) (setPassword hash now) store.users) with
  | (saved, some text) => (saved, .error text)
  | (saved, none) => (saved, .ok (publicUser (setPassword hash now current)))

/-- The second locked section of `authenticate`. An empty `upgradedHash` stands for none. -/
def finishAuthenticate (username : String) (candidate : UserRecord) (upgradedHash : String)
    (write : FileWrite) (now : Time) (store : UserStore) : UserStore × Except String PublicUser :=
  match store.users.find? (names username) with
  | none => (store, .error errInvalidLogin)
  | some current =>
    if ¬unchangedSince candidate current then (store, .error errInvalidLogin)
    else if upgradedHash ≠ "" then store.savePassword username upgradedHash write now current
    else (store, .ok (publicUser current))

/-- The second locked section of `ChangePassword`. -/
def finishChangePassword (username : String) (candidate : UserRecord) (newHash : String)
    (write : FileWrite) (now : Time) (store : UserStore) : UserStore × Except String PublicUser :=
  match store.users.find? (names username) with
  | none => (store, .error errUserNotFound)
  | some current =>
    if ¬unchangedSince candidate current then (store, .error errInvalidCurrentPassword)
    else store.savePassword username newHash write now current

end UserStore

/-- What a session cookie signs. The signature is not modelled: a cookie that the gateway
issued verifies and yields its payload. -/
structure SessionPayload where
  user : String
  role : String
  credentialVersion : Int
  expires : Int
deriving DecidableEq, Repr

structure SessionInfo where
  user : String
  role : String
  authMethod : String
deriving DecidableEq, Repr

def unixSeconds (time : Time) : Int := time / second

def signSession [Unicode] (user role : String) (expires : Time) (store : UserStore) :
    SessionPayload :=
  { user := user
    role := role
    credentialVersion := ((store.get user).map (·.updatedAt)).getD 0
    expires := unixSeconds expires }

def browserSessionUser [Unicode] (payload : SessionPayload) (now : Time) (store : UserStore) :
    Option SessionInfo :=
  if payload.expires ≤ 0 ∨ payload.expires ≤ unixSeconds now then none
  else match store.get payload.user with
  | none => none
  | some user =>
    if payload.credentialVersion = 0 ∨ payload.credentialVersion ≠ user.updatedAt then none
    else some { user := user.username, role := user.role, authMethod := "browser" }

/-- A login request. `read` and `confirmed` count the password changes of the user that were
committed when the login read the row whose password it checks and when it confirmed the check; the
code keeps neither. -/
inductive Login where
  | idle
  | checking (username password : String) (candidate : Option UserRecord) (read : Nat)
  | authenticated (user : PublicUser) (read confirmed : Nat)
  | issued (username : String) (read : Nat) (payload : SessionPayload)
  | failed (err : String)

/-- A call of `ChangePassword`. `before` counts the user's changes committed before its own. -/
inductive PasswordChange where
  | idle
  | checking (username currentPassword newPassword : String) (candidate : UserRecord)
  | returned (username : String) (before : Nat) (result : Except String PublicUser)
  | failed (err : String)

structure Sessions where
  users : UserStore
  logins : Nat → Login := fun _ => .idle
  changes : Nat → PasswordChange := fun _ => .idle
  changed : String → Nat := fun _ => 0

/-- The hashes are results of the password work, which needs no lock. -/
inductive SessionEvent where
  | loginRead (login : Nat) (username password : String)
  | loginConfirm (login : Nat) (upgraded : Except String String) (write : FileWrite) (now : Time)
  | loginSign (login : Nat) (now : Time)
  | loginFail (login : Nat) (err : String)
  | changeRead (change : Nat) (username currentPassword newPassword : String)
  | changeCommit (change : Nat) (newHash : Except String String) (write : FileWrite) (now : Time)
  | changeFail (change : Nat) (err : String)

namespace Sessions

def setLogin (i : Nat) (login : Login) (s : Sessions) : Sessions :=
  { s with logins := Function.update s.logins i login }

def setChange (j : Nat) (change : PasswordChange) (s : Sessions) : Sessions :=
  { s with changes := Function.update s.changes j change }

section Steps

variable [Unicode] (verifyPasswordHash : String → String → Bool)
  (passwordHashNeedsUpgrade : String → Bool)

def readLogin (i : Nat) (username password : String) (s : Sessions) : Sessions :=
  match normalizeUsername username with
  | .error err => s.setLogin i (.failed err)
  | .ok username =>
    s.setLogin i
      (.checking username password (s.users.loginCandidate username) (s.changed username))

/-- The password check of `authenticate`: the upgraded hash, or the error it ends with. -/
def checkLogin (password : String) (candidate : UserRecord) (upgraded : Except String String) :
    Except String String :=
  if !verifyPasswordHash candidate.passwordHash password then .error errInvalidLogin
  else if passwordHashNeedsUpgrade candidate.passwordHash then upgraded
  else .ok ""

def confirmLogin (i : Nat) (username : String) (candidate : UserRecord) (read : Nat)
    (upgradedHash : String) (write : FileWrite) (now : Time) (s : Sessions) : Sessions :=
  match s.users.finishAuthenticate username candidate upgradedHash write now with
  | (users, .ok user) =>
    { s with users := users }.setLogin i (.authenticated user read (s.changed username))
  | (users, .error err) => { s with users := users }.setLogin i (.failed err)

def readChange (j : Nat) (username currentPassword newPassword : String) (s : Sessions) : Sessions :=
  match normalizeUsername username with
  | .error err => s.setChange j (.failed err)
  | .ok username =>
    if trimSpace newPassword = "" then s.setChange j (.failed "new password is required")
    else match validatePassword newPassword with
    | some err => s.setChange j (.failed err)
    | none =>
      match s.users.users.find? (names username) with
      | none => s.setChange j (.failed errUserNotFound)
      | some candidate =>
        s.setChange j (.checking username currentPassword newPassword candidate)

def commitChange (j : Nat) (username : String) (candidate : UserRecord) (newHash : String)
    (write : FileWrite) (now : Time) (s : Sessions) : Sessions :=
  let (users, result) := s.users.finishChangePassword username candidate newHash write now
  let count := if users.generation = s.users.generation then s.changed username
    else s.changed username + 1
  { s with users := users, changed := Function.update s.changed username count }.setChange j
    (.returned username (s.changed username) result)

def step (s : Sessions) : SessionEvent → Sessions
  | .loginRead i username password =>
    match s.logins i with
    | .idle => s.readLogin i username password
    | _ => s
  | .loginConfirm i upgraded write now =>
    match s.logins i with
    | .checking _ _ none _ => s.setLogin i (.failed errInvalidLogin)
    | .checking username password (some candidate) read =>
      match checkLogin verifyPasswordHash passwordHashNeedsUpgrade password candidate upgraded with
      | .error err => s.setLogin i (.failed err)
      | .ok hash => s.confirmLogin i username candidate read hash write now
    | _ => s
  | .loginSign i now =>
    match s.logins i with
    | .authenticated user read _ =>
      s.setLogin i (.issued user.username read
        (signSession user.username user.role (now + sessionTTL) s.users))
    | _ => s
  | .loginFail i err =>
    match s.logins i with
    | .checking .. => s.setLogin i (.failed err)
    | _ => s
  | .changeRead j username currentPassword newPassword =>
    match s.changes j with
    | .idle => s.readChange j username currentPassword newPassword
    | _ => s
  | .changeCommit j newHash write now =>
    match s.changes j with
    | .checking username currentPassword _ candidate =>
      if !verifyPasswordHash candidate.passwordHash currentPassword then
        s.setChange j (.failed errInvalidCurrentPassword)
      else match newHash with
      | .error err => s.setChange j (.failed err)
      | .ok hash => s.commitChange j username candidate hash write now
    | _ => s
  | .changeFail j err =>
    match s.changes j with
    | .checking .. => s.setChange j (.failed err)
    | _ => s

end Steps

end Sessions

section Saves

variable {username hash : String} {write : FileWrite} {now : Time} {current : UserRecord}

/-- The table with the user's password replaced. -/
def withPassword (username hash : String) (now : Time) (store : UserStore) : UserStore :=
  ⟨modifyFirst (names username) (setPassword hash now) store.users, store.generation + 1⟩

/-- A password is not saved, with an error, or it is. -/
theorem savePassword_cases (store : UserStore) :
    ((store.savePassword username hash write now current).1 = store ∧
        ∀ user, (store.savePassword username hash write now current).2 ≠ .ok user) ∨
      (store.savePassword username hash write now current).1 =
        withPassword username hash now store := by
  unfold savePassword saveLocked
  cases hCommitted : write.committed with
  | false =>
    cases hErr : write.err with
    | none => exact absurd hErr (write.failed hCommitted)
    | some text => exact .inl ⟨rfl, nofun⟩
  | true => exact .inr (by cases write.err <;> rfl)

theorem savePassword_username {store : UserStore} {user : PublicUser}
    (h : (store.savePassword username hash write now current).2 = .ok user) :
    user.username = current.username := by
  unfold savePassword at h
  split at h
  · cases h
  · obtain rfl := Except.ok.inj h
    rfl

theorem names_username {user : UserRecord} (h : names username user = true) :
    user.username = username := by
  simp only [names, Bool.and_eq_true, beq_iff_eq] at h
  exact h.1

theorem finishAuthenticate_cases (candidate : UserRecord) (store : UserStore) :
    ((store.finishAuthenticate username candidate hash write now).1 = store ∨
      (store.finishAuthenticate username candidate hash write now).1 =
        withPassword username hash now store) ∧
    ∀ user, (store.finishAuthenticate username candidate hash write now).2 = .ok user →
      user.username = username ∧ ∃ row, store.users.find? (names username) = some row ∧
        row.updatedAt = candidate.updatedAt := by
  unfold finishAuthenticate
  split
  · exact ⟨.inl rfl, nofun⟩
  rename_i row hFind
  have hRow := names_username (List.find?_some hFind)
  split
  · exact ⟨.inl rfl, nofun⟩
  rename_i hUnchanged
  have hSame : row.updatedAt = candidate.updatedAt := (not_not.mp hUnchanged).2
  split
  · exact ⟨(savePassword_cases store).imp_left And.left,
      fun user hUser => ⟨(savePassword_username hUser).trans hRow, row, hFind, hSame⟩⟩
  · refine ⟨.inl rfl, fun user hUser => ?_⟩
    obtain rfl := Except.ok.inj hUser
    exact ⟨hRow, row, hFind, hSame⟩

/-- A row that a login may check is the one that the other lookups find. -/
theorem loginCandidate_row {store : UserStore} {row : UserRecord}
    (h : store.loginCandidate username = some row) :
    store.users.find? (names username) = some row := by
  obtain ⟨hFind, hEnabled⟩ := Option.filter_eq_some_iff.mp h
  obtain ⟨hName, before, after, hSplit, hBefore⟩ := List.find?_eq_some_iff_append.mp hFind
  refine List.find?_eq_some_iff_append.mpr ⟨?_, before, after, hSplit, fun other hOther => ?_⟩
  · rw [names, hName, hEnabled]
    rfl
  · have hOtherName := hBefore other hOther
    simp_all [names]

theorem finishChangePassword_cases (candidate : UserRecord) (store : UserStore) :
    ((store.finishChangePassword username candidate hash write now).1 = store ∧
        ∀ user, (store.finishChangePassword username candidate hash write now).2 ≠ .ok user) ∨
      (store.finishChangePassword username candidate hash write now).1 =
        withPassword username hash now store := by
  unfold finishChangePassword
  split
  · exact .inl ⟨rfl, nofun⟩
  split
  · exact .inl ⟨rfl, nofun⟩
  · exact savePassword_cases store

theorem find?_withPassword (store : UserStore) (name : String) :
    (withPassword username hash now store).users.find? (names name) =
      if name = username then (store.users.find? (names name)).map (setPassword hash now)
      else store.users.find? (names name) := by
  unfold withPassword
  split
  · rename_i hName
    subst hName
    have hKeep : ∀ row, names name row = true →
        names name (setPassword hash now row) = true := fun _ hRow => hRow
    exact find?_modifyFirst hKeep _
  · rename_i hName
    refine find?_modifyFirst_of_disjoint (fun row hRow => ?_) _
    have hUsername := names_username hRow
    simp [names, setPassword, hUsername, Ne.symm hName]

end Saves

variable {name : String}

/-- A normalized username is normalized, given that lower case letters stay as they are. -/
theorem normalizeUsername_idem [Unicode]
    (hLower : Unicode.LowersOnce) {text : String}
    (h : normalizeUsername text = .ok name) : normalizeUsername name = .ok name := by
  unfold normalizeUsername at h
  dsimp only at h
  split at h
  · cases h
  rename_i hEmpty
  split at h
  · cases h
  rename_i hLength
  split at h
  · cases h
  rename_i hChars
  obtain rfl := Except.ok.inj h
  have hSpaces : ∀ c ∈ (toLower (trimSpace text)).toList, isSpace c = false := by
    intro c hc
    by_contra hSpace
    exact hChars (List.any_eq_true.mpr ⟨c, hc, by simp [hSpace]⟩)
  unfold normalizeUsername
  dsimp only
  rw [trimSpace_of_forall hSpaces, toLower_toLower hLower, if_neg hEmpty, if_neg hLength,
    if_neg hChars]

namespace Sessions

/-- The row that lookups of a user find. -/
def row (name : String) (s : Sessions) : Option UserRecord :=
  s.users.users.find? (names name)

/-- No password change of the user is committed between the confirmation of a login's password
check and the read of its credential version, and the clock has advanced past the row's last
update whenever a password is saved. -/
def Steady (s : Sessions) : SessionEvent → Prop
  | .loginConfirm i _ _ now =>
    match s.logins i with
    | .checking username _ _ _ => ∀ user ∈ s.row username, user.updatedAt < now
    | _ => True
  | .loginSign i _ =>
    match s.logins i with
    | .authenticated user _ confirmed => s.changed user.username = confirmed
    | _ => True
  | .changeCommit j _ _ now =>
    match s.changes j with
    | .checking username _ _ _ => ∀ user ∈ s.row username, user.updatedAt < now
    | _ => True
  | _ => True

/-- Rows are only updated to later times, and strictly later by a password change. -/
def Advances (s t : Sessions) : Prop :=
  ∀ name, s.changed name ≤ t.changed name ∧ ∀ after ∈ t.row name, ∃ before ∈ s.row name,
    before.updatedAt ≤ after.updatedAt ∧
      (s.changed name < t.changed name → before.updatedAt < after.updatedAt)

/-- A version that a later row can only have moved away from. -/
def Outdated (s : Sessions) (name : String) (read : Nat) (version : Int) : Prop :=
  ∀ user ∈ s.row name, version ≤ user.updatedAt ∧
    (read < s.changed name → version < user.updatedAt)

section Invariant

variable [Unicode]

def LoginSound (s : Sessions) : Login → Prop
  | .checking username _ candidate read => normalizeUsername username = .ok username ∧
    ∀ row ∈ candidate, s.Outdated username read row.updatedAt
  | .authenticated user read confirmed =>
    normalizeUsername user.username = .ok user.username ∧ confirmed ≤ read
  | .issued username read payload =>
    normalizeUsername username = .ok username ∧ payload.user = username ∧
      (payload.credentialVersion = 0 ∨ s.Outdated username read payload.credentialVersion)
  | _ => True

def ChangeSound (s : Sessions) : PasswordChange → Prop
  | .returned username before (.ok _) => before < s.changed username
  | _ => True

structure Sound (s : Sessions) : Prop where
  logins : ∀ i, s.LoginSound (s.logins i)
  changes : ∀ j, s.ChangeSound (s.changes j)

variable {s t : Sessions} {read : Nat}

omit [Unicode] in
theorem Outdated.advance {version : Int} (h : s.Outdated name read version)
    (hAdvances : s.Advances t) : t.Outdated name read version := by
  intro after hAfter
  obtain ⟨hCount, hRows⟩ := hAdvances name
  obtain ⟨before, hBefore, hLe, hLt⟩ := hRows after hAfter
  obtain ⟨hVersion, hStrict⟩ := h before hBefore
  refine ⟨hVersion.trans hLe, fun hRead => ?_⟩
  rcases hCount.lt_or_eq with hNew | hSame
  · exact hVersion.trans_lt (hLt hNew)
  · exact (hStrict (hSame ▸ hRead)).trans_le hLe

theorem LoginSound.advance {login : Login} (h : s.LoginSound login) (hAdvances : s.Advances t) :
    t.LoginSound login := by
  cases login with
  | checking username password candidate read =>
    exact ⟨h.1, fun row hRow => (h.2 row hRow).advance hAdvances⟩
  | issued username read payload =>
    exact ⟨h.1, h.2.1, h.2.2.imp_right fun hOld => hOld.advance hAdvances⟩
  | idle | authenticated | failed => exact h

omit [Unicode] in
theorem ChangeSound.advance {change : PasswordChange} (h : s.ChangeSound change)
    (hAdvances : s.Advances t) : t.ChangeSound change := by
  cases change with
  | returned username before result =>
    cases result with
    | ok user => exact Nat.lt_of_lt_of_le h (hAdvances username).1
    | error err => trivial
  | idle | checking | failed => exact h

omit [Unicode] in
theorem advances_of_eq (hUsers : t.users = s.users) (hChanged : t.changed = s.changed) :
    s.Advances t := by
  intro name
  rw [row, row, hUsers, hChanged]
  exact ⟨le_rfl, fun user hUser => ⟨user, hUser, le_rfl, fun h => absurd h (lt_irrefl _)⟩⟩

variable {username : String} {now : Time}

omit [Unicode] in
theorem advances_withPassword {hash : String}
    (hClock : ∀ user ∈ s.row username, user.updatedAt < now)
    (hUsers : t.users = withPassword username hash now s.users)
    (hCount : s.changed username ≤ t.changed username)
    (hOther : ∀ name, name ≠ username → t.changed name = s.changed name) : s.Advances t := by
  intro name
  rw [row, row, hUsers, find?_withPassword]
  by_cases hName : name = username
  · subst hName
    refine ⟨hCount, fun after hAfter => ?_⟩
    rw [if_pos rfl] at hAfter
    obtain ⟨before, hBefore, rfl⟩ := Option.map_eq_some_iff.mp hAfter
    have hLt : before.updatedAt < now := hClock before hBefore
    exact ⟨before, hBefore, hLt.le, fun _ => hLt⟩
  · rw [if_neg hName, hOther name hName]
    exact ⟨le_rfl, fun user hUser => ⟨user, hUser, le_rfl, fun h => absurd h (lt_irrefl _)⟩⟩

variable {users : UserStore} {changed : String → Nat}

theorem Sound.setLogin (h : s.Sound) (hAdvances : s.Advances { s with users, changed }) {i : Nat}
    {login : Login} (hLogin : LoginSound { s with users, changed } login) :
    (Sessions.setLogin i login { s with users, changed }).Sound := by
  constructor
  · intro j
    show LoginSound { s with users, changed } (update s.logins i login j)
    rcases eq_or_ne j i with rfl | hj
    · rwa [update_self]
    · rw [update_of_ne hj]
      exact (h.logins j).advance hAdvances
  · exact fun j => (h.changes j).advance hAdvances

theorem Sound.setChange (h : s.Sound) (hAdvances : s.Advances { s with users, changed }) {j : Nat}
    {change : PasswordChange} (hChange : ChangeSound { s with users, changed } change) :
    (Sessions.setChange j change { s with users, changed }).Sound := by
  constructor
  · exact fun i => (h.logins i).advance hAdvances
  · intro i
    show ChangeSound { s with users, changed } (update s.changes j change i)
    rcases eq_or_ne i j with rfl | hi
    · rwa [update_self]
    · rw [update_of_ne hi]
      exact (h.changes i).advance hAdvances

omit [Unicode] in
theorem advances_refl (s : Sessions) : s.Advances s := advances_of_eq rfl rfl

/-- The check is confirmed on the row that was read, so no change came in between. -/
theorem Sound.confirmLogin (h : s.Sound) (i : Nat) {candidate : UserRecord} (hash : String)
    (write : FileWrite) (hName : normalizeUsername username = .ok username)
    (hRead : s.Outdated username read candidate.updatedAt)
    (hClock : ∀ user ∈ s.row username, user.updatedAt < now) :
    (s.confirmLogin i username candidate read hash write now).Sound := by
  obtain ⟨hUsers, hUsername⟩ := @finishAuthenticate_cases username hash write now candidate s.users
  unfold Sessions.confirmLogin
  have hAdvances : ∀ users, (users = s.users ∨ users = withPassword username hash now s.users) →
      s.Advances { s with users := users } := by
    rintro users (rfl | rfl)
    · exact advances_refl s
    · exact advances_withPassword hClock rfl le_rfl fun _ _ => rfl
  split
  · rename_i users user hResult
    rw [hResult] at hUsers hUsername
    obtain ⟨hSame, row, hRow, hVersion⟩ := hUsername user rfl
    refine h.setLogin (hAdvances users hUsers) ?_
    rw [LoginSound, hSame]
    refine ⟨hName, not_lt.mp fun hLater => ?_⟩
    exact absurd hVersion ((hRead row hRow).2 hLater).ne'
  · rename_i users err hResult
    rw [hResult] at hUsers
    exact h.setLogin (hAdvances users hUsers) trivial

theorem Sound.commitChange (h : s.Sound) (j : Nat) (candidate : UserRecord) (hash : String)
    (write : FileWrite) (hClock : ∀ user ∈ s.row username, user.updatedAt < now) :
    (s.commitChange j username candidate hash write now).Sound := by
  unfold Sessions.commitChange
  dsimp only
  rcases @finishChangePassword_cases username hash write now candidate s.users with
    ⟨hSame, hErr⟩ | hSaved
  · -- Nothing was saved, so the call did not succeed and the count stays.
    rw [hSame, if_pos rfl, update_eq_self]
    refine h.setChange (advances_of_eq rfl rfl) ?_
    cases hResult : (s.users.finishChangePassword username candidate hash write now).2 with
    | ok user => exact absurd hResult (hErr user)
    | error err => trivial
  · rw [hSaved, if_neg (by simp [withPassword])]
    refine h.setChange (advances_withPassword hClock rfl ?_ ?_) ?_
    · simp
    · intro name hName
      exact update_of_ne hName _ _
    · cases (s.users.finishChangePassword username candidate hash write now).2 with
      | ok user => simp [ChangeSound]
      | error err => trivial

theorem get_of_normal (h : normalizeUsername name = .ok name) (s : Sessions) :
    s.users.get name = s.row name := by
  rw [UserStore.get, h, row]

/-- A session that is signed before the next password change has the version of the row. -/
theorem Sound.sign (h : s.Sound) (i : Nat) {user : PublicUser} {confirmed : Nat}
    (hLogin : s.logins i = .authenticated user read confirmed)
    (hCount : s.changed user.username = confirmed) (now : Time) :
    (s.setLogin i (.issued user.username read
      (signSession user.username user.role (now + sessionTTL) s.users))).Sound := by
  have hSound := h.logins i
  rw [hLogin] at hSound
  obtain ⟨hName, hLe⟩ := hSound
  refine h.setLogin (advances_refl s) ⟨hName, rfl, ?_⟩
  rw [signSession]
  dsimp only
  rw [get_of_normal hName]
  refine .inr fun row hRow => ?_
  rw [Option.mem_def.mp hRow]
  exact ⟨le_rfl, fun hLt => absurd hLt (hCount ▸ not_lt.mpr hLe)⟩

variable (verifyPasswordHash : String → String → Bool) (passwordHashNeedsUpgrade : String → Bool)

/-- Every step of the gateway keeps the invariant. -/
theorem step_sound (hLower : Unicode.LowersOnce)
    (s : Sessions) (event : SessionEvent) (hOk : s.Steady event) (h : s.Sound) :
    (step verifyPasswordHash passwordHashNeedsUpgrade s event).Sound := by
  cases event with
  | loginRead i username password =>
    simp only [step]
    split
    · unfold readLogin
      split
      · exact h.setLogin (advances_refl s) trivial
      · rename_i name hName
        refine h.setLogin (advances_refl s) ⟨normalizeUsername_idem hLower hName, ?_⟩
        intro row hRow user hUser
        cases (loginCandidate_row hRow).symm.trans hUser
        exact ⟨le_rfl, fun hLt => absurd hLt (lt_irrefl _)⟩
    · exact h
  | loginConfirm i upgraded write now =>
    simp only [step]
    split
    · exact h.setLogin (advances_refl s) trivial
    · rename_i username password candidate read hLogin
      have hSound := h.logins i
      rw [hLogin] at hSound
      simp only [Steady, hLogin] at hOk
      split
      · exact h.setLogin (advances_refl s) trivial
      · exact h.confirmLogin i _ write hSound.1 (hSound.2 candidate rfl) hOk
    · exact h
  | loginSign i now =>
    simp only [step]
    split
    · rename_i user read confirmed hLogin
      simp only [Steady, hLogin] at hOk
      exact h.sign i hLogin hOk now
    · exact h
  | loginFail i err =>
    simp only [step]
    split
    · exact h.setLogin (advances_refl s) trivial
    · exact h
  | changeRead j username currentPassword newPassword =>
    simp only [step]
    split
    · unfold readChange
      repeat' split
      all_goals exact h.setChange (advances_refl s) trivial
    · exact h
  | changeCommit j newHash write now =>
    simp only [step]
    split
    · rename_i username currentPassword newPassword candidate hChange
      simp only [Steady, hChange] at hOk
      repeat' split
      · exact h.setChange (advances_refl s) trivial
      · exact h.setChange (advances_refl s) trivial
      · exact h.commitChange j candidate _ write hOk
    · exact h
  | changeFail j err =>
    simp only [step]
    split
    · exact h.setChange (advances_refl s) trivial
    · exact h

/-- A session whose version the row has moved past is not accepted. -/
theorem browserSessionUser_outdated {payload : SessionPayload}
    (h : s.LoginSound (.issued username read payload)) (hRead : read < s.changed username)
    (now : Time) : browserSessionUser payload now s.users = none := by
  obtain ⟨hName, hUser, hVersion⟩ := h
  unfold browserSessionUser
  split
  · rfl
  rw [hUser, get_of_normal hName]
  split
  · rfl
  rename_i user hRow
  refine if_pos (hVersion.imp_right fun hOutdated => ?_)
  exact ((hOutdated user hRow).2 hRead).ne

/-- In a steady run, a session that a login obtained with the password that it read before a
completed password change is not accepted after that change. -/
theorem old_password_session_rejected
    (hLower : ∀ c, Unicode.lower (Unicode.lower c) = Unicode.lower c) (users : UserStore)
    (events : List SessionEvent)
    (hSteady : Along (step verifyPasswordHash passwordHashNeedsUpgrade) Steady
      { users := users } events)
    {i j read before : Nat} {username : String} {payload : SessionPayload} {user : PublicUser}
    (hIssued : (run (step verifyPasswordHash passwordHashNeedsUpgrade)
      { users := users } events).logins i = .issued username read payload)
    (hChanged : (run (step verifyPasswordHash passwordHashNeedsUpgrade)
      { users := users } events).changes j = .returned username before (.ok user))
    (hOld : read ≤ before) (now : Time) :
    browserSessionUser payload now (run
      (step verifyPasswordHash passwordHashNeedsUpgrade) { users := users } events).users =
        none := by
  have hStart : ({ users := users } : Sessions).Sound := ⟨fun _ => trivial, fun _ => trivial⟩
  have hSound := hSteady.invariant Sound
    (step_sound verifyPasswordHash passwordHashNeedsUpgrade hLower) hStart
  have hLogin := hSound.logins i
  have hChange := hSound.changes j
  rw [hIssued] at hLogin
  rw [hChanged] at hChange
  exact browserSessionUser_outdated hLogin (Nat.lt_of_le_of_lt hOld hChange) now

end Invariant

section Samples

open scoped Plain

def oldPassword : String := "old-password-strong"
def newPassword : String := "new-password-strong"

/-- In the samples a hash is the password itself. -/
def samplePasswords (hash password : String) : Bool := hash == password

def aliceAccount : UserStore :=
  { users := [{ username := "alice", passwordHash := oldPassword, updatedAt := 10 }] }

/-- A login and a password change with the same old password, up to the confirmation of the
login's password check. -/
def aliceReads : List SessionEvent :=
  [.loginRead 0 "alice" oldPassword, .changeRead 0 "alice" oldPassword newPassword,
   .loginConfirm 0 (.ok "") .done 11]

def signAlice : SessionEvent := .loginSign 0 12

def changeAlice : SessionEvent := .changeCommit 0 (.ok newPassword) .done 20

def aliceSessionStep [Unicode] : Sessions → SessionEvent → Sessions :=
  step samplePasswords fun _ => false

def sessionOf (version : Int) : SessionPayload :=
  { user := "alice", role := roleUser, credentialVersion := version, expires := 86400 }

def changedAlice : PublicUser :=
  { username := "alice", role := roleUser, createdAt := 0, updatedAt := 20 }

/-- A session signed before the password change is not accepted after it. -/
theorem old_password_session_rejected_alice :
    let s := run aliceSessionStep { users := aliceAccount }
      (aliceReads ++ [signAlice, changeAlice])
    s.logins 0 = .issued "alice" 0 (sessionOf 10) ∧
      s.changes 0 = .returned "alice" 0 (.ok changedAlice) ∧
      browserSessionUser (sessionOf 10) 30 s.users = none := by
  intro s
  have hIssued : s.logins 0 = .issued "alice" 0 (sessionOf 10) := by rfl
  have hChanged : s.changes 0 = .returned "alice" 0 (.ok changedAlice) := by rfl
  have hSteady : @Along _ _ (aliceSessionStep) Steady
      { users := aliceAccount } (aliceReads ++ [signAlice, changeAlice]) := by
    refine ⟨trivial, trivial, ?_, ?_, ?_, trivial⟩
    · show ∀ user ∈ aliceAccount.users.find? (names "alice"), user.updatedAt < 11
      decide
    · rfl
    · show ∀ user ∈ aliceAccount.users.find? (names "alice"), user.updatedAt < 20
      decide
  exact ⟨hIssued, hChanged, @old_password_session_rejected ascii samplePasswords (fun _ => false)
    ascii_lower_lower aliceAccount _ hSteady _ _ _ _ _ _ _ hIssued hChanged le_rfl 30⟩

/-- Signed after the change has been committed, the session of the same login carries the new
version, and it is accepted although only the old password was ever checked. -/
theorem old_password_session_accepted :
    let s := run aliceSessionStep { users := aliceAccount }
      (aliceReads ++ [changeAlice, signAlice])
    s.logins 0 = .issued "alice" 0 (sessionOf 20) ∧
      s.changes 0 = .returned "alice" 0 (.ok changedAlice) ∧
      browserSessionUser (sessionOf 20) 30 s.users =
        some { user := "alice", role := roleUser, authMethod := "browser" } :=
  ⟨by rfl, by rfl, by decide +kernel⟩

end Samples

end Sessions

end GPUardian
