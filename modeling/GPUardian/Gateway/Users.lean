import GPUardian.Store.Registration
import GPUardian.Library.Slice
import Mathlib.Data.List.Sort

/-! The gateway's users and their fixed keys, for a store whose users file has been loaded.
Every method of the source holds the lock of the user store while it reads or saves, so a
method that does so once is one step. -/
namespace GPUardian

open GoStrings GoSlice

def roleAdmin : String := "admin"
def roleUser : String := "user"
def maxUsernameBytes : Nat := 64

structure UserRecord where
  username : String := ""
  role : String := roleUser
  passwordHash : String := ""
  keyID : String := ""
  keyHash : String := ""
  keyVersion : Int := 0
  keyCreatedAt : Time := 0
  createdAt : Time := 0
  updatedAt : Time := 0
  disabled : Bool := false
deriving DecidableEq, Repr

/-- The loaded users. `generation` counts the tables that were loaded or saved. -/
structure UserStore where
  users : List UserRecord := []
  generation : Nat := 0
deriving DecidableEq, Repr

/-- `unicode.IsControl`. -/
def isControl (c : Char) : Bool := c.toNat < 0x20 || (0x7f ≤ c.toNat && c.toNat < 0xa0)

def normalizeUsername [Unicode] (username : String) : Except String String :=
  let username := toLower (trimSpace username)
  if username = "" then .error "username is required"
  else if maxUsernameBytes < byteLen username then
    .error s!"username must be at most {maxUsernameBytes} bytes"
  else if username.toList.any fun c => isSpace c || isControl c then
    .error "username cannot contain whitespace or control characters"
  else .ok username

/-- What writing the users file came to: whether the new file is in place, and the error.
`writePrivateFile` returns an error whenever the new file is not in place. -/
structure FileWrite where
  committed : Bool := true
  err : Option String := none
  failed : committed = false → err ≠ none := by simp

/-- A write that went through. -/
def FileWrite.done : FileWrite := {}

namespace UserStore

def saveLocked (write : FileWrite) (users : List UserRecord) (store : UserStore) :
    UserStore × Option String :=
  if write.committed then ({ users := users, generation := store.generation + 1 }, write.err)
  else (store, write.err)

/-- Rows of a user who was not deleted. -/
def names (username : String) (user : UserRecord) : Bool :=
  user.username == username && !user.disabled

def get [Unicode] (username : String) (store : UserStore) : Option UserRecord :=
  match normalizeUsername username with
  | .error _ => none
  | .ok username => store.users.find? (names username)

end UserStore

structure FixedUserKey where
  id : String
  owner : String
  version : Int
  createdAt : Time := 0
  secret : String := ""
deriving DecidableEq, Repr

def fixedUserKey (user : UserRecord) (secret : String) : FixedUserKey :=
  { id := user.keyID, owner := user.username, version := user.keyVersion,
    createdAt := user.keyCreatedAt, secret := secret }

def maxInt64 : Int := 9223372036854775807

/-- The version after a rotation. It is an `int64`: the successor of the largest one is
negative, and the count starts again at one. -/
def nextKeyVersion (version : Int) : Int :=
  let version := Int.bmod (version + 1) 18446744073709551616
  if version < 1 then 1 else version

/-- What `assign` takes from outside: the random strings in hexadecimal and the clock. -/
structure KeyDraw where
  secretHex : String
  idHex : String
  now : Time := 0

def KeyDraw.secret (draw : KeyDraw) : String := "gk_" ++ draw.secretHex

/-- `assign` without the sealed copy of the secret, which only `reveal` reads. -/
def assignKey [Digest] (draw : KeyDraw) (version : Int) (user : UserRecord) : UserRecord :=
  { user with
    keyID := "uk_" ++ draw.idHex
    keyVersion := version
    keyCreatedAt := draw.now
    keyHash := hashToken draw.secret }

def rotateKey [Digest] (draw : KeyDraw) (user : UserRecord) : UserRecord :=
  assignKey draw (nextKeyVersion user.keyVersion) user

namespace UserStore

/-- `draw` is an error when no cipher is set up or the random source fails. -/
def regenerateFixedKey [Unicode] [Digest] (username : String) (draw : Except String KeyDraw)
    (write : FileWrite) (store : UserStore) : UserStore × Except String FixedUserKey :=
  match normalizeUsername username with
  | .error text => (store, .error text)
  | .ok username =>
    match store.users.find? (names username), draw with
    | none, _ => (store, .error "user not found")
    | some _, .error text => (store, .error text)
    | some user, .ok draw =>
      match store.saveLocked write
          (modifyFirst (names username) (rotateKey draw) store.users) with
      | (saved, some text) => (saved, .error text)
      | (saved, none) => (saved, .ok (fixedUserKey (rotateKey draw user) draw.secret))

/-- The verifiers that are sent to the nodes, in the order of their ids. -/
def fixedKeyVerifiers (users : List UserRecord) : List ManagedUserKey :=
  ((users.filter fun user => !user.disabled && user.keyID != "").map fun user =>
    { id := user.keyID, owner := user.username, version := user.keyVersion, hash := user.keyHash }
    : List ManagedUserKey).insertionSort fun a b => a.id ≤ b.id

def verifierOf (user : UserRecord) : ManagedUserKey :=
  { id := user.keyID, owner := user.username, version := user.keyVersion, hash := user.keyHash }

theorem mem_fixedKeyVerifiers {users : List UserRecord} {key : ManagedUserKey} :
    key ∈ fixedKeyVerifiers users ↔
      ∃ user ∈ users, user.disabled = false ∧ user.keyID ≠ "" ∧ key = verifierOf user := by
  simp only [fixedKeyVerifiers, List.mem_insertionSort, List.mem_map, List.mem_filter,
    Bool.and_eq_true, Bool.not_eq_true', bne_iff_ne, ne_eq, and_assoc, verifierOf,
    @eq_comm _ key]

/-- A rotation leaves the store alone, or commits the table with the user's row rotated. -/
theorem regenerateFixedKey_cases [Unicode] [Digest] (username : String)
    (draw : Except String KeyDraw) (write : FileWrite) (store : UserStore) :
    (store.regenerateFixedKey username draw write).1 = store ∨
      ∃ name user drawn, normalizeUsername username = .ok name ∧ draw = .ok drawn ∧
        store.users.find? (names name) = some user ∧
        (store.regenerateFixedKey username draw write).1 =
          ⟨modifyFirst (names name) (rotateKey drawn) store.users, store.generation + 1⟩ := by
  unfold regenerateFixedKey
  split
  · exact .inl rfl
  rename_i name hName
  split
  · exact .inl rfl
  · exact .inl rfl
  rename_i user drawn hFind
  unfold saveLocked
  cases hCommitted : write.committed with
  | false => exact .inl (by cases write.err <;> rfl)
  | true => exact .inr ⟨name, user, drawn, hName, rfl, hFind, by cases write.err <;> rfl⟩

end UserStore

/-- Below the largest `int64` the next version is a larger one. -/
theorem lt_nextKeyVersion {version : Int} (h : version < maxInt64) :
    version < nextKeyVersion version := by
  unfold maxInt64 at h
  unfold nextKeyVersion
  dsimp only
  split
  · rename_i hWrapped
    by_contra hNot
    rw [Int.bmod_def] at hWrapped
    split at hWrapped <;> omega
  · rename_i hPositive
    by_cases hSmall : version < 1
    · omega
    · rw [Int.bmod_def] at hPositive ⊢
      split <;> omega

/-- What rotations may have done to a row: nothing, or it now has a key with a larger
version, of which `fresh` holds. -/
structure RowAdvances (fresh : UserRecord → Prop) (before after : UserRecord) : Prop where
  username : after.username = before.username
  disabled : after.disabled = before.disabled
  key : after = before ∨
    (before.keyVersion < after.keyVersion ∧ after.keyID ≠ "" ∧ fresh after)

theorem RowAdvances.refl (fresh : UserRecord → Prop) (user : UserRecord) :
    RowAdvances fresh user user := ⟨rfl, rfl, .inl rfl⟩

theorem RowAdvances.imp {fresh fresh' : UserRecord → Prop} {before after : UserRecord}
    (h : RowAdvances fresh before after) (hImp : fresh after → fresh' after) :
    RowAdvances fresh' before after :=
  ⟨h.username, h.disabled, h.key.imp_right fun hKey => ⟨hKey.1, hKey.2.1, hImp hKey.2.2⟩⟩

theorem RowAdvances.keyVersion_le {fresh : UserRecord → Prop} {before after : UserRecord}
    (h : RowAdvances fresh before after) : before.keyVersion ≤ after.keyVersion := by
  rcases h.key with rfl | ⟨hLt, _⟩
  · exact le_rfl
  · exact hLt.le

theorem RowAdvances.trans {fresh fresh' : UserRecord → Prop} {a b c : UserRecord}
    (hFirst : RowAdvances fresh a b) (hSecond : RowAdvances fresh' b c) (hFresh : fresh' c → fresh c) :
    RowAdvances fresh a c := by
  refine ⟨hSecond.username.trans hFirst.username, hSecond.disabled.trans hFirst.disabled, ?_⟩
  rcases hSecond.key with rfl | ⟨hLt, hID, hNew⟩
  · exact hFirst.key
  · exact .inr ⟨hFirst.keyVersion_le.trans_lt hLt, hID, hFresh hNew⟩

end GPUardian
