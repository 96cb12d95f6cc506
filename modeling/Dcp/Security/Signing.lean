import Dcp.Error
import Dcp.Library.Bytes

/-!
Signed invocations. Key parsing, signature verification and the hash function live in
third-party crates and are parameters; the message that is signed, the order of the
checks and the error of each are the source's.
-/

namespace Dcp
open Library

abbrev PublicKey := Vector UInt8 32
abbrev Signature := Vector UInt8 64
abbrev Digest := Vector UInt8 32

/-- The primitives of the ed25519 and blake3 crates. -/
structure Crypto where
  verifyingKeyFromBytes : PublicKey → Bool
  verify : PublicKey → List UInt8 → Signature → Bool
  blake3 : List UInt8 → Digest

/-- The hash has no collision among the byte strings of `inputs`. -/
def Crypto.CollisionFreeOn (crypto : Crypto) (inputs : Set (List UInt8)) : Prop :=
  Set.InjOn crypto.blake3 inputs

structure SignedInvocation where
  toolId : UInt32
  nonce : UInt64
  timestamp : UInt64
  argsHash : Digest
  signature : Signature
  deriving DecidableEq

namespace SignedInvocation

/-- The bytes covered by the signature. -/
def message (inv : SignedInvocation) : List UInt8 :=
  leBytes 4 inv.toolId.toNat ++ leBytes 8 inv.nonce.toNat ++ leBytes 8 inv.timestamp.toNat ++
    inv.argsHash.toList

end SignedInvocation

namespace Verifier

/-- Verify a signed invocation with a known public key. -/
def verifyInvocation (crypto : Crypto) (inv : SignedInvocation) (publicKey : PublicKey) :
    Except SecurityError Unit :=
  if ¬ crypto.verifyingKeyFromBytes publicKey then .error .invalidSignature
  else if ¬ crypto.verify publicKey inv.message inv.signature then .error .invalidSignature
  else .ok ()

/-- Verify that the args hash matches the provided arguments. -/
def verifyArgsHash (crypto : Crypto) (inv : SignedInvocation) (args : List UInt8) : Bool :=
  decide (crypto.blake3 args = inv.argsHash)

end Verifier

/-!
One recorded signature: the key, digest and signature bytes that the two crates compute
for the tool 1, the nonce 7, the timestamp 1000 and the argument bytes 1, 1.
-/

def recordedKey : PublicKey :=
  #v[25, 127, 107, 35, 225, 108, 133, 50, 198, 171, 200, 56, 250, 205, 94, 167,
    137, 190, 12, 118, 178, 146, 3, 52, 3, 155, 250, 139, 61, 54, 141, 97]

def recordedDigest : Digest :=
  #v[32, 34, 236, 157, 87, 27, 167, 116, 207, 158, 131, 208, 25, 73, 98, 245,
    209, 227, 170, 26, 72, 212, 134, 166, 126, 39, 98, 166, 199, 149, 144, 21]

def recordedInvocation : SignedInvocation where
  toolId := 1
  nonce := 7
  timestamp := 1000
  argsHash := recordedDigest
  signature :=
    #v[239, 143, 53, 154, 177, 188, 33, 126, 51, 177, 18, 79, 250, 198, 224, 23,
      88, 224, 119, 235, 108, 206, 6, 67, 102, 54, 120, 32, 32, 225, 34, 64,
      206, 4, 41, 216, 135, 0, 139, 226, 7, 205, 222, 195, 86, 44, 254, 248,
      32, 243, 66, 185, 139, 34, 114, 210, 78, 142, 67, 168, 251, 193, 14, 4]

/-- Primitives that know the recorded key, signature and digest and nothing else. -/
def Crypto.recorded : Crypto where
  verifyingKeyFromBytes publicKey := decide (publicKey = recordedKey)
  verify publicKey message signature := decide (publicKey = recordedKey ∧
    message = recordedInvocation.message ∧ signature = recordedInvocation.signature)
  blake3 data := if data = [1, 1] then recordedDigest else Vector.replicate 32 0

end Dcp
