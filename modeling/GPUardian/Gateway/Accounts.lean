import GPUardian.Gateway.Sessions

/-! The accounts of a gateway: how users come and go, and which of them get keys. -/
namespace GPUardian

open GoStrings GoSlice

def maxUsers : Nat := 256
def errPasswordWorkBusy : String := "password authentication is temporarily busy"
def errUsernameInUse : String := "username is already in use or was previously deleted"

def normalizeRole [Unicode] (role : String) : String :=
  if toLower (trimSpace role) = roleAdmin then roleAdmin else roleUser

/-- `hash` is what `hashPassword` returns. -/
def newUserRecord [Unicode] (username password role : String) (hash : Except String String)
    (now : Time) : Except String UserRecord :=
  match normalizeUsername username, validatePassword password, hash with
  | .error text, _, _ => .error text
  | .ok _, some text, _ => .error text
  | .ok _, none, .error text => .error text
  | .ok username, none, .ok hash =>
    .ok { username := username, role := normalizeRole role, passwordHash := hash,
          createdAt := now, updatedAt := now }

/-- A deleted user keeps the row, without the password. -/
def disableUser (now : Time) (user : UserRecord) : UserRecord :=
  { user with passwordHash := "", disabled := true, updatedAt := now }

namespace UserStore

variable [Unicode] [Digest]

omit [Digest] in
def bootstrapAdmin (username password : String) (hash : Except String String) (write : FileWrite)
    (now : Time) (store : UserStore) : UserStore × Option String :=
  if store.users ≠ [] then (store, none)
  else match newUserRecord username password roleAdmin hash now with
  | .error text => (store, some text)
  | .ok record => store.saveLocked write [record]

/-- The key of a new user. There is no `draw` while the gateway has no cipher for keys. -/
def assignFirstKey (draw : Option (Except String KeyDraw)) (record : UserRecord) :
    Except String UserRecord :=
  match draw with
  | none => .ok record
  | some (.error text) => .error text
  | some (.ok draw) => .ok (assignKey draw 1 record)

def create (busy : Bool) (username password role : String) (hash : Except String String)
    (draw : Option (Except String KeyDraw)) (write : FileWrite) (now : Time) (store : UserStore) :
    UserStore × Except String PublicUser :=
  if busy then (store, .error errPasswordWorkBusy)
  else match newUserRecord username password role hash now with
  | .error text => (store, .error text)
  | .ok record =>
    match assignFirstKey draw record with
    | .error text => (store, .error text)
    | .ok record =>
      if store.users.any (·.username == record.username) then (store, .error errUsernameInUse)
      else if maxUsers ≤ store.users.length then
        (store, .error s!"user limit reached: maximum {maxUsers}")
      else match store.saveLocked write (store.users ++ [record]) with
      | (saved, some text) => (saved, .error text)
      | (saved, none) => (saved, .ok (publicUser record))

def activeAdmin (user : UserRecord) : Bool := user.role == roleAdmin && !user.disabled

def delete (username : String) (write : FileWrite) (now : Time) (store : UserStore) :
    UserStore × Option String :=
  match normalizeUsername username with
  | .error text => (store, some text)
  | .ok username =>
    match store.users.find? (·.username == username) with
    | none => (store, some errUserNotFound)
    | some user =>
      if user.disabled then (store, some errUserNotFound)
      else if user.role = roleAdmin ∧ store.users.countP activeAdmin = 1 then
        (store, some "cannot delete the last admin")
      else store.saveLocked write
        (modifyFirst (·.username == username) (disableUser now) store.users)

/-- The loop of `InitializeFixedKeys` from the row `i` on. `reveal` is the error of decrypting
the stored copy of a key, and `draw i` what a key for that row is made of. -/
def fillKeys (reveal : UserRecord → Option String) (draw : Nat → Except String KeyDraw) :
    Nat → List UserRecord → Except String (List UserRecord)
  | _, [] => .ok []
  | i, user :: rest =>
    if user.disabled then (fillKeys reveal draw (i + 1) rest).map (user :: ·)
    else if user.keyID = "" then
      match draw i with
      | .error text => .error text
      | .ok drawn => (fillKeys reveal draw (i + 1) rest).map (assignKey drawn 1 user :: ·)
    else match reveal user with
    | some text => .error s!"validate fixed key for {user.username}: {text}"
    | none => (fillKeys reveal draw (i + 1) rest).map (user :: ·)

def initializeFixedKeys (cipher : Option String) (reveal : UserRecord → Option String)
    (draw : Nat → Except String KeyDraw) (write : FileWrite) (store : UserStore) :
    UserStore × Option String :=
  match cipher, fillKeys reveal draw 0 store.users with
  | some text, _ => (store, some text)
  | none, .error text => (store, some text)
  | none, .ok users =>
    if store.users.any fun user => !user.disabled && user.keyID == "" then
      store.saveLocked write users
    else (store, none)

end UserStore

end GPUardian
