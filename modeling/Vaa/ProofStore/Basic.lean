import Vaa.Merkle.Basic
import Mathlib.Logic.Function.Basic

/-!
# The proof store

The crate `vaa-proofstore`: the store keeps, for each index key, the Merkle proof
last anchored under it, cut into shards at the predetermined level, and, for each
anchored root, the labels of the tree at that level (the *proof assistance*).

* `ProofStore.anchor` proves a leaf, stores the proof and publishes the assistance;
* `ProofStore.verify` walks all the shards of a stored proof up to its root;
* `ProofStore.verifyWithAssistance` walks the lower shard up to a label and checks
  the labels against the root.

The hash maps of the store are modelled by their lookups.
-/

namespace Vaa

open PairTree Merkle

/-- `ProofStoreError`. -/
inductive ProofStoreError
  | merkle (e : MerkleError)
  | keyNotFound
  | rootMismatch
  | trustedOperationalNotImplemented
  | assistanceMismatch
  deriving DecidableEq, Repr

/-- The text of an error. -/
def ProofStoreError.text : ProofStoreError → String
  | merkle e => s!"merkle layer error: {e.text}"
  | keyNotFound => "no proof stored under the requested index key"
  | rootMismatch => "reconstructed root does not match the expected anchored root"
  | trustedOperationalNotImplemented =>
    "trusted-operational EC-compression mode is not implemented in this version; " ++
      "use ReconstructionMode::Adversarial for audit-mode verification"
  | assistanceMismatch =>
    "proof-assistance check failed: computed level-k node does not match published label"

/-- `Direction`: the side of a transaction an index entry refers to. -/
inductive Direction
  | input
  | output
  deriving DecidableEq, Repr

/-- `IndexKey`: the index schema of stored proofs, compared on all its fields. -/
structure IndexKey where
  txid : Hash
  direction : Direction
  position : UInt32
  blockPosition : UInt32
  lockingScript : Option Bytes
  unlockingScript : Option Bytes
  amount : Option UInt64
  deriving DecidableEq

/-- `ReconstructionMode`. -/
inductive ReconstructionMode
  | adversarial
  | trustedOperational
  deriving DecidableEq, Repr

/-- `ProofShard`: the siblings of the levels from `fromLevel` to `toLevel` excluded. -/
structure ProofShard where
  fromLevel : ℕ
  toLevel : ℕ
  siblings : List Hash
  deriving DecidableEq

/-- `StoredProof`. -/
structure StoredProof where
  key : IndexKey
  leafIndex : ℕ
  shards : List ProofShard
  expectedRoot : Hash
  deriving DecidableEq

/-- `StoredProof::reassemble`. -/
def StoredProof.reassemble (stored : StoredProof) : MerkleProof where
  leafIndex := stored.leafIndex
  siblings := stored.shards.flatMap fun shard => shard.siblings

/-- `ProofAssistance`: the labels of the tree at a level, from left to right. -/
structure ProofAssistance where
  predeterminedLevel : ℕ
  nodeLabels : List Hash
  deriving DecidableEq

/-- `ProofStore`. -/
structure ProofStore where
  predeterminedLevel : ℕ
  storage : IndexKey → Option StoredProof
  assistanceByRoot : Hash → Option ProofAssistance

namespace ProofStore

/-- `ProofStore::new`. -/
def new (predeterminedLevel : ℕ) : ProofStore where
  predeterminedLevel := predeterminedLevel
  storage := fun _ => none
  assistanceByRoot := fun _ => none

/-- `ProofStore::proof_assistance_for`. -/
def proofAssistanceFor (store : ProofStore) (root : Hash) : Option ProofAssistance :=
  store.assistanceByRoot root

/-- `shard_proof`: one shard below the level `min k depth` and one from it on, the
    empty ones omitted. -/
def shardProof (proof : MerkleProof) (predeterminedLevel : ℕ) : List ProofShard :=
  let depth := proof.siblings.length
  if depth = 0 then
    []
  else
    let k := min predeterminedLevel depth
    let lower : List ProofShard :=
      if 0 < k then
        [{ fromLevel := 0, toLevel := k, siblings := proof.siblings.take k }]
      else
        []
    let upper : List ProofShard :=
      if k < depth then
        [{ fromLevel := k, toLevel := depth, siblings := proof.siblings.drop k }]
      else
        []
    lower ++ upper

section Hash

variable (sha256 : Bytes → Hash)

/-- The copy of `hash_pair` in this crate. -/
def hashPair (left right : Hash) : Hash :=
  let buf := left.toList ++ right.toList
  Bsv.doubleSha256 sha256 buf

/-- The loop of `compute_proof_assistance`. -/
def assistanceLoop (targetLevel : ℕ) (level : List Hash) (currentLevel : ℕ) : ProofAssistance :=
  if currentLevel < targetLevel ∧ 1 < level.length then
    let padded := if level.length % 2 = 1 then level ++ level.getLast?.toList else level
    let next := (chunkPairs padded).map fun pair => hashPair sha256 pair.1 pair.2
    assistanceLoop targetLevel next (currentLevel + 1)
  else
    { predeterminedLevel := currentLevel, nodeLabels := level }
termination_by level.length
decreasing_by
  rename_i h
  exact length_pairUp_lt (hashPair sha256) h.2

/-- `compute_proof_assistance`. -/
def computeProofAssistance (leaves : List Hash) (targetLevel : ℕ) :
    Result ProofStoreError ProofAssistance :=
  if leaves = [] then
    .error (.err (.merkle .emptyTree))
  else
    .ok (assistanceLoop sha256 targetLevel leaves 0)

/-- `ProofStore::anchor`: the store after the call, and its outcome. -/
def anchor (store : ProofStore) (key : IndexKey) (leaves : List Hash) (leafIndex : ℕ) :
    ProofStore × Result ProofStoreError Hash :=
  match merkleRoot (Merkle.hashPair sha256) leaves with
  | .error e => (store, .error (e.map .merkle))
  | .ok root =>
    match merkleProof (Merkle.hashPair sha256) leaves leafIndex with
    | .error e => (store, .error (e.map .merkle))
    | .ok proof =>
      let shards := shardProof proof store.predeterminedLevel
      let stored : StoredProof :=
        { key := key, leafIndex := leafIndex, shards := shards, expectedRoot := root }
      let store := { store with storage := Function.update store.storage key (some stored) }
      match computeProofAssistance sha256 leaves store.predeterminedLevel with
      | .error e => (store, .error e)
      | .ok assistance =>
        ({ store with
            assistanceByRoot := Function.update store.assistanceByRoot root (some assistance) },
          .ok root)

/-- `ProofStore::query`. -/
def query (store : ProofStore) (key : IndexKey) : Result ProofStoreError StoredProof :=
  Result.okOr (store.storage key) .keyNotFound

/-- `ProofStore::verify`, which does not read the store. -/
def verify (leaf : Hash) (stored : StoredProof) (mode : ReconstructionMode) :
    Result ProofStoreError Unit :=
  match mode with
  | .adversarial =>
    let reassembled := stored.reassemble
    let reconstructed := reassembled.reconstructRoot (Merkle.hashPair sha256) leaf
    if reconstructed = stored.expectedRoot then
      .ok ()
    else
      .error (.err .rootMismatch)
  | .trustedOperational => .error (.err .trustedOperationalNotImplemented)

/-- The siblings of the first shard from the level `0`, none if there is no such shard. -/
def lowerSiblings (stored : StoredProof) : List Hash :=
  match stored.shards.find? fun s => s.fromLevel = 0 with
  | some s => s.siblings
  | none => []

/-- `ProofStore::verify_with_assistance`. -/
def verifyWithAssistance (store : ProofStore) (leaf : Hash) (stored : StoredProof) :
    Result ProofStoreError Unit :=
  match store.proofAssistanceFor stored.expectedRoot with
  | none => .error (.err .keyNotFound)
  | some assistance =>
    let k := assistance.predeterminedLevel
    let (current, idx) := ((lowerSiblings stored).take k).foldl
      (fun (current, idx) sibling =>
        (if idx &&& 1 = 0 then hashPair sha256 current sibling
          else hashPair sha256 sibling current, idx >>> 1))
      (leaf, stored.leafIndex)
    if assistance.nodeLabels.length ≤ idx then
      .error (.err .assistanceMismatch)
    else
      match Result.index assistance.nodeLabels idx with
      | .error e => .error e
      | .ok label =>
        if label ≠ current then
          .error (.err .assistanceMismatch)
        else
          match merkleRoot (Merkle.hashPair sha256) assistance.nodeLabels with
          | .error e => .error (e.map .merkle)
          | .ok labelsRoot =>
            if labelsRoot ≠ stored.expectedRoot then
              .error (.err .assistanceMismatch)
            else
              .ok ()

end Hash

end ProofStore

end Vaa
