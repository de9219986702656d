import HopNet.Types

namespace HopNet

/-- A row of `users`, keyed by `user_id`; `username` is unique. -/
structure UserRow where
  userId : Int
  username : String
  pubkey : PubKey
  x25519Pubkey : FixedBytes 32
  encryptedPrivkey : Bytes
  keySalt : Bytes
  firstName : Option String
  lastName : Option String
  avatar : Option Bytes
  onboardingFlags : BitVec 32
deriving DecidableEq

/-- A row of `mesh_key_access`, keyed by the recipient. -/
structure MeshKeyGrant where
  recipientPubkey : FixedBytes 32
  ephemeralPubkey : FixedBytes 32
  wrappedPrivkey : Bytes
deriving DecidableEq

/-- `SELECT 1 FROM users WHERE user_id = ?`, as also a foreign key asks. -/
def UserExists (users : List UserRow) (userId : Int) : Prop := ∃ row ∈ users, row.userId = userId
deriving Decidable

/-- A user for running the model: keys that tell users apart. -/
def UserRow.sample (userId : Nat) : UserRow :=
  ⟨userId, "user", .replicate 32 (UInt8.ofNat userId), .replicate 32 (UInt8.ofNat (100 + userId)),
    [], [], none, none, none, 0⟩

def userX25519Pubkey (users : List UserRow) (userId : Int) : Option (FixedBytes 32) :=
  (users.find? (·.userId = userId)).map (·.x25519Pubkey)

end HopNet
