import PaymentNetwork.Hash.Sha512
import PaymentNetwork.SortedMap
import PaymentNetwork.Sorting
import PaymentNetwork.Word

/-!
# Hash Time Locks

A lock promises an amount to whoever shows the preimage of a hash before a
block. The sender of a channel direction commits to all of its pending locks at
once, by the root of a hash tree.

Every lock is hashed into a leaf. The leaves are sorted, so the order in which
locks were added leaves no trace. A layer is halved by hashing neighbours, and
an odd node at the end moves up as it is. No locks at all have the zero hash as
their root.

## Main definitions

* `Lock`: An amount, an expiration and the hash of a secret.
* `hashSecret`: The hash that a secret opens.
* `Lock.leaf`: The leaf of a lock.
* `merkleRoot`: The root over some leaves.
* `locksroot`: The root over the leaves of some locks.

## Theorems

* `length_pairUp`: One layer has half as many nodes, rounded up.
-/

namespace PaymentNetwork

/-- The root over the pending locks of a channel direction. -/
abbrev Locksroot := Digest

/-- The promise of `amount` to whoever shows the preimage of `secretHash` before
    the block `expiration`. -/
structure Lock where
  amount : Amount
  expiration : Height
  secretHash : SecretHash
deriving DecidableEq

/-- The hash that a secret opens. -/
def hashSecret (secret : Secret) : SecretHash := sha512t256 secret.bytes

/-- Does the secret open locks on the hash? -/
def opens (secret : Secret) (secretHash : SecretHash) : Bool :=
  decide (hashSecret secret = secretHash)

namespace Lock

/-- The bytes of a lock that its leaf is the hash of. -/
def leafBytes (l : Lock) : List UInt8 :=
  wordBytes 16 l.amount.val ++ wordBytes 8 l.expiration.val ++ l.secretHash.bytes

/-- The leaf of a lock. -/
def leaf (l : Lock) : Digest := sha512t256 l.leafBytes

end Lock

/-- The node above two others. -/
def hashPair (left right : Digest) : Digest := sha512t256 (left.bytes ++ right.bytes)

/-- The layer above a layer. A lone last node moves up unchanged. -/
def pairUp : List Digest → List Digest
  | [] => []
  | [x] => [x]
  | x :: y :: rest => hashPair x y :: pairUp rest

/-- The node at the top, at most `count` layers up. No layers are empty. -/
def climb : Nat → List Digest → Digest
  | _, [] => FixedBytes.zero 32
  | _, [x] => x
  | 0, x :: _ => x
  | count + 1, x :: y :: rest => climb count (pairUp (x :: y :: rest))

/-- The root over some leaves. There are fewer layers than leaves. -/
def merkleRoot (leaves : List Digest) : Digest :=
  climb leaves.length (sortOn id leaves)

/-- The root over some locks. -/
def locksroot (locks : List Lock) : Locksroot := merkleRoot (locks.map Lock.leaf)

theorem length_pairUp : ∀ layer, (pairUp layer).length = (layer.length + 1) / 2
  | [] => by simp [pairUp]
  | [_] => by simp [pairUp]
  | _ :: _ :: rest => by
      have ih := length_pairUp rest
      simp only [pairUp, List.length_cons, ih]
      omega

end PaymentNetwork
