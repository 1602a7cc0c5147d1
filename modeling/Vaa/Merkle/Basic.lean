import Vaa.PairTree.Level
import Vaa.Bsv
import Vaa.Rust

/-!
# Merkle trees and proofs

The crate `vaa-merkle`. The pair hash of the loops is a parameter `hashPair`; the
one the crate hashes with is `Merkle.hashPair`.

* `merkleRoot`: the level-by-level construction of the root;
* `merkleProof`: the proof of the leaf at an index, by the same construction;
* `MerkleProof.reconstructRoot`, `MerkleProof.verify`: the verifier's walk.

`rootPairs` are the pairs hashed in building the tree, in order.
-/

namespace Vaa.Merkle

open PairTree

/-- `MerkleError`. -/
inductive MerkleError
  | emptyTree
  | indexOutOfRange (index leafCount : ℕ)
  | rootMismatch
  deriving DecidableEq, Repr

/-- The text of an error. -/
def MerkleError.text : MerkleError → String
  | emptyTree => "merkle tree must have at least one leaf"
  | indexOutOfRange index leafCount =>
    s!"leaf index {index} is out of range for tree of {leafCount} leaves"
  | rootMismatch => "reconstructed root does not match the expected root"

/-- `MerkleProof`. -/
structure MerkleProof where
  /-- The index of the proved leaf in the original leaf order. -/
  leafIndex : ℕ
  /-- The sibling hashes from the bottom of the tree up to the root excluded. -/
  siblings : List Hash
  deriving DecidableEq

/-- `hash_pair`: the double SHA-256 of the 64 bytes `left || right`. -/
def hashPair (sha256 : Bytes → Hash) (left right : Hash) : Hash :=
  let buf := left.toList ++ right.toList
  Bsv.doubleSha256 sha256 buf

section Loops

variable (hashPair : Hash → Hash → Hash)

/-- The loop of `merkle_root`. -/
def merkleRootLoop (level : List Hash) : Result MerkleError Hash :=
  if 1 < level.length then
    let padded := if level.length % 2 = 1 then level ++ level.getLast?.toList else level
    let next := (chunkPairs padded).map fun pair => hashPair pair.1 pair.2
    merkleRootLoop next
  else
    Result.index level 0
termination_by level.length
decreasing_by exact length_pairUp_lt hashPair ‹_›

/-- `merkle_root`. -/
def merkleRoot (leaves : List Hash) : Result MerkleError Hash :=
  if leaves = [] then
    .error (.err .emptyTree)
  else
    merkleRootLoop hashPair leaves

/-- The loop of `merkle_proof`: the siblings of the node at `idx`, level by level. -/
def merkleProofLoop (level : List Hash) (idx : ℕ) (siblings : List Hash) :
    Result MerkleError (List Hash) :=
  if 1 < level.length then
    let padded := if level.length % 2 = 1 then level ++ level.getLast?.toList else level
    match padded[idx ^^^ 1]? with
    | none => .error .panicked
    | some sibling =>
      let next := (chunkPairs padded).map fun pair => hashPair pair.1 pair.2
      merkleProofLoop next (idx >>> 1) (siblings ++ [sibling])
  else
    .ok siblings
termination_by level.length
decreasing_by exact length_pairUp_lt hashPair ‹_›

/-- `merkle_proof`. -/
def merkleProof (leaves : List Hash) (index : ℕ) : Result MerkleError MerkleProof :=
  if leaves = [] then
    .error (.err .emptyTree)
  else if leaves.length ≤ index then
    .error (.err (.indexOutOfRange index leaves.length))
  else do
    let siblings ← merkleProofLoop hashPair leaves index []
    return { leafIndex := index, siblings := siblings }

/-- `MerkleProof::reconstruct_root`. -/
def MerkleProof.reconstructRoot (proof : MerkleProof) (leaf : Hash) : Hash :=
  (proof.siblings.foldl
    (fun (current, idx) sibling =>
      (if idx &&& 1 = 0 then hashPair current sibling else hashPair sibling current, idx >>> 1))
    (leaf, proof.leafIndex)).1

/-- `MerkleProof::verify`. -/
def MerkleProof.verify (proof : MerkleProof) (leaf expectedRoot : Hash) :
    Result MerkleError Unit :=
  if proof.reconstructRoot hashPair leaf = expectedRoot then
    .ok ()
  else
    .error (.err .rootMismatch)

/-- The pairs hashed in building the levels above `level`. -/
def levelsPairs (level : List Hash) : List (Hash × Hash) :=
  if 1 < level.length then
    let padded := if level.length % 2 = 1 then level ++ level.getLast?.toList else level
    let next := (chunkPairs padded).map fun pair => hashPair pair.1 pair.2
    chunkPairs padded ++ levelsPairs next
  else
    []
termination_by level.length
decreasing_by exact length_pairUp_lt hashPair ‹_›

/-- The pairs hashed by `merkleRoot leaves`, level by level. -/
def rootPairs (leaves : List Hash) : List (Hash × Hash) := levelsPairs hashPair leaves

end Loops

end Vaa.Merkle
