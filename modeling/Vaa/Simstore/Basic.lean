import Vaa.Cli.Basic
import Mathlib.Algebra.BigOperators.Group.Finset.Defs

/-!
# The storage study

The crate `vaa-simstore` anchors the queried leaves of a vector one after the other into
a store (`anchorAll`), takes the stored proofs out again (`queryAll`), and counts their
bytes (`measureStoreBytes`): in full, with equal upper shards counted once, and with the
lower shards only, each time with the labels of the proof assistance.

The population and the queries are arguments, the durations it measures and the ratios
it prints are left out. The set of upper shards is a `Finset`.
-/

namespace Vaa.Simstore

open PairTree Merkle ProofStore Cli

/-- `HASH_BYTES`. -/
def hashBytes : ℕ := 32

/-- `SEED`. -/
def seed : ℕ := 2026053001

/-- `key_for`. -/
def keyFor (index : ℕ) (leaf : Hash) : IndexKey where
  txid := leaf
  direction := .output
  position := 0
  blockPosition := if index < 2 ^ 32 then UInt32.ofNat index else UInt32.ofNat (2 ^ 32 - 1)
  lockingScript := none
  unlockingScript := none
  amount := none

/-- `ceil_log2`. -/
def ceilLog2 (n : ℕ) : ℕ :=
  if n ≤ 1 then
    0
  else
    Nat.log2 (n - 1) + 1

/-- `proof_total_siblings`. -/
def proofTotalSiblings (p : StoredProof) : ℕ := (p.shards.map fun s => s.siblings.length).sum

/-- One turn of the inner loop of `measure_store_bytes`: the bytes of the lower shards,
    and the upper shards. -/
def measureShard (predeterminedLevel : ℕ) (acc : ℕ × Finset (List Hash)) (s : ProofShard) :
    ℕ × Finset (List Hash) :=
  if s.fromLevel < predeterminedLevel then
    (acc.1 + s.siblings.length * hashBytes, acc.2)
  else
    (acc.1, insert s.siblings acc.2)

/-- `measure_store_bytes`. -/
def measureStoreBytes (stored : List StoredProof) (predeterminedLevel assistanceBytes : ℕ) :
    ℕ × ℕ × ℕ :=
  let noDedup := ((stored.flatMap fun p => p.shards).map fun s =>
    s.siblings.length * hashBytes).sum + assistanceBytes
  let (lowerBytes, uniqueUpper) := stored.foldl
    (fun acc p => p.shards.foldl (measureShard predeterminedLevel) acc) (0, ∅)
  let upperDedupUpperBytes := ∑ v ∈ uniqueUpper, v.length * hashBytes
  let upperDedup := lowerBytes + upperDedupUpperBytes + assistanceBytes
  let minimumViable := lowerBytes + assistanceBytes
  (noDedup, upperDedup, minimumViable)

/-- `retrieval_adversarial_bytes`. -/
def retrievalAdversarialBytes (p : StoredProof) : ℕ := proofTotalSiblings p * hashBytes + 8

/-- `retrieval_assisted_bytes`. -/
def retrievalAssistedBytes (p : StoredProof) (predeterminedLevel : ℕ) : ℕ :=
  let lower := ((p.shards.filter fun s => s.fromLevel < predeterminedLevel).map fun s =>
    s.siblings.length * hashBytes).sum
  lower + 8

/-- `result.expect(..)`. -/
def expect {ε ε' α : Type} (x : Result ε α) : Result ε' α :=
  match x with
  | .ok a => .ok a
  | .error _ => .error .panicked

section Hash

variable (sha256 : Bytes → Hash)

/-- One turn of the loop of `main` that anchors the queried indices. -/
def anchorIndex (leaves : List Hash) (store : ProofStore) (i : ℕ) :
    Result AnyhowError ProofStore := do
  let leaf ← Result.index leaves i
  let (store, anchored) := store.anchor sha256 (keyFor i leaf) leaves i
  let _root ← (anchored.mapErr ofProofStore).context "anchor"
  return store

/-- The loop of `main` that anchors the queried indices. -/
def anchorAll (leaves : List Hash) (store : ProofStore) (indices : List ℕ) :
    Result AnyhowError ProofStore :=
  indices.foldlM (anchorIndex sha256 leaves) store

/-- `stored`. -/
def queryAll (leaves : List Hash) (store : ProofStore) (indices : List ℕ) :
    Result AnyhowError (List StoredProof) := do
  let storedKeys ← indices.mapM fun i => do
    let leaf ← Result.index leaves i
    return keyFor i leaf
  storedKeys.mapM fun k => expect (store.query k)

end Hash

end Vaa.Simstore
