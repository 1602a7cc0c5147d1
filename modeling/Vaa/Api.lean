import Vaa.ProofStore.Run

/-!
# The audit verifier

The crate `vaa-api`: a bundle is accepted when it asks for adversarial mode, its
record hashes to its leaf, and the proof stored under its key verifies the leaf.

`audit_sound_complete`: after any run of the store, this is so exactly when the leaf
is the one last anchored under the key, up to a collision between the walk of the
verifier and the tree anchored.
-/

namespace Vaa

open PairTree Merkle ProofStore

/-- `ApiError`. -/
inductive ApiError
  | proofStore (e : ProofStoreError)
  | recordLeafMismatch
  | nonAdversarialMode
  deriving DecidableEq, Repr

/-- The text of an error. -/
def ApiError.text : ApiError → String
  | proofStore e => s!"proofstore: {e.text}"
  | recordLeafMismatch => "disclosed record does not hash to the proven leaf"
  | nonAdversarialMode => "audit API rejects non-adversarial reconstruction mode"

/-- `AuditBundle`. -/
structure AuditBundle where
  indexKey : IndexKey
  disclosedRecord : Bytes
  leaf : Hash
  mode : ReconstructionMode
  deriving DecidableEq

/-- `AuditEvidence`. -/
structure AuditEvidence where
  merkleRoot : Hash
  leafIndex : ℕ
  disclosedRecord : Bytes
  deriving DecidableEq

/-- `AuditVerifier`. -/
structure AuditVerifier where
  store : ProofStore

namespace AuditVerifier

/-- `AuditVerifier::new`. -/
def new (store : ProofStore) : AuditVerifier where
  store := store

/-- `AuditVerifier::verify`. -/
def verify (sha256 : Bytes → Hash) (verifier : AuditVerifier) (bundle : AuditBundle) :
    Result ApiError AuditEvidence :=
  if bundle.mode ≠ .adversarial then
    .error (.err .nonAdversarialMode)
  else
    let recomputedLeaf := Bsv.doubleSha256 sha256 bundle.disclosedRecord
    if recomputedLeaf ≠ bundle.leaf then
      .error (.err .recordLeafMismatch)
    else do
      let stored ← Result.mapErr .proofStore (verifier.store.query bundle.indexKey)
      Result.mapErr .proofStore (ProofStore.verify sha256 bundle.leaf stored .adversarial)
      return {
        merkleRoot := stored.expectedRoot
        leafIndex := stored.leafIndex
        disclosedRecord := bundle.disclosedRecord }

variable {sha256 : Bytes → Hash} {verifier : AuditVerifier} {bundle : AuditBundle}
  {ev : AuditEvidence}

/-- A bundle is accepted exactly when it passes every check, with the evidence of
    the stored proof. -/
theorem verify_eq_ok_iff : verifier.verify sha256 bundle = .ok ev ↔
    bundle.mode = .adversarial ∧ Bsv.doubleSha256 sha256 bundle.disclosedRecord = bundle.leaf ∧
      ∃ stored, verifier.store.query bundle.indexKey = .ok stored ∧
        ProofStore.verify sha256 bundle.leaf stored .adversarial = .ok () ∧
        ev = { merkleRoot := stored.expectedRoot, leafIndex := stored.leafIndex
               disclosedRecord := bundle.disclosedRecord } := by
  rw [verify]
  by_cases hmode : bundle.mode = .adversarial
  · by_cases hleaf : Bsv.doubleSha256 sha256 bundle.disclosedRecord = bundle.leaf
    · simp only [hmode, hleaf, ne_eq, not_true_eq_false, if_false, true_and,
        Result.bind_eq_ok_iff, Result.mapErr_eq_ok_iff]
      constructor
      · rintro ⟨stored, hquery, ⟨⟩, hok, hev⟩
        exact ⟨stored, hquery, hok, (Except.ok.inj hev).symm⟩
      · rintro ⟨stored, hquery, hok, rfl⟩
        exact ⟨stored, hquery, (), hok, rfl⟩
    · simp [hmode, hleaf]
  · simp [hmode]

end AuditVerifier

/-! ## Soundness and completeness -/

/-- The evidence `ev` is what the bundle may claim after a run: its record hashes to
    the leaf last anchored under its key, and `ev` tells where. -/
def Audited (sha256 : Bytes → Hash) (ρ : Run) (bundle : AuditBundle) (ev : AuditEvidence) :
    Prop :=
  bundle.mode = .adversarial ∧ Bsv.doubleSha256 sha256 bundle.disclosedRecord = bundle.leaf ∧
    ∃ e, ρ.lastUnder bundle.indexKey = some e ∧
      e.call.leaves[e.call.leafIndex]? = some bundle.leaf ∧
      merkleRoot (Merkle.hashPair sha256) e.call.leaves = .ok ev.merkleRoot ∧
      ev.leafIndex = e.call.leafIndex ∧ ev.disclosedRecord = bundle.disclosedRecord

/-- The inputs hashed in walking up from a leaf along a stored proof. -/
def walkInputs (sha256 : Bytes → Hash) (leaf : Hash) (stored : StoredProof) : List Bytes :=
  (stored.reassemble.pairs (Merkle.hashPair sha256) leaf).map pairInput

/-- The inputs hashed in building a tree. -/
def treeInputs (sha256 : Bytes → Hash) (leaves : List Hash) : List Bytes :=
  (rootPairs (Merkle.hashPair sha256) leaves).map pairInput

/-- The proof stored by a call verifies its leaf and, up to a collision with the
    tree, no other. -/
theorem Anchored.verify_stored {sha256 : Bytes → Hash} {k : ℕ} {e : Anchored}
    (hvalid : e.Valid sha256) (x : Hash) :
    (e.call.leaves[e.call.leafIndex]? = some x →
      ProofStore.verify sha256 x (e.stored sha256 k) .adversarial = .ok ()) ∧
    (ProofStore.verify sha256 x (e.stored sha256 k) .adversarial = .ok () →
      e.call.leaves[e.call.leafIndex]? = some x ∨
        Bsv.Collides sha256 (walkInputs sha256 x (e.stored sha256 k))
          (treeInputs sha256 e.call.leaves)) := by
  have hi := hvalid.index_lt
  have hne : e.call.leaves ≠ [] := hvalid.ne_nil
  have hreassemble : (e.stored sha256 k).reassemble =
      { leafIndex := e.call.leafIndex
        siblings := path (Merkle.hashPair sha256) e.call.leaves e.call.leafIndex } :=
    reassemble_storedOf ..
  have hindex : (e.stored sha256 k).leafIndex = e.call.leafIndex := rfl
  have hroot : (e.stored sha256 k).expectedRoot =
      rootOf (Merkle.hashPair sha256) e.call.leaves := rfl
  rw [ProofStore.verify_eq_ok_iff, hreassemble, hindex, hroot, walkInputs, hreassemble,
    getElem?_eq_leafAt hi, Option.some.injEq]
  constructor
  · rintro rfl
    exact walk_path _ hi
  · intro hwalk
    rcases walk_eq_root hne (length_path ..) hwalk with ⟨hx, _⟩ | hc
    · rw [Nat.mod_eq_of_lt (lt_two_pow_height hi), origin_of_lt (by simpa using hi)] at hx
      exact .inl hx.symm
    · exact .inr (collides_of_collision hc)

/-- After any run of the store, the verifier accepts a bundle exactly when its record
    hashes to the leaf last anchored under its key, up to a collision between the
    walk and the tree anchored. -/
theorem audit_sound_complete (sha256 : Bytes → Hash) (k : ℕ) (calls : List AnchorCall)
    (bundle : AuditBundle) (ev : AuditEvidence) :
    (Audited sha256 (run sha256 k calls) bundle ev →
      (AuditVerifier.new (run sha256 k calls).store).verify sha256 bundle = .ok ev) ∧
    ((AuditVerifier.new (run sha256 k calls).store).verify sha256 bundle = .ok ev →
      Audited sha256 (run sha256 k calls) bundle ev ∨
        ∃ e stored, (run sha256 k calls).lastUnder bundle.indexKey = some e ∧
          (run sha256 k calls).store.query bundle.indexKey = .ok stored ∧
          Bsv.Collides sha256 (walkInputs sha256 bundle.leaf stored)
            (treeInputs sha256 e.call.leaves)) := by
  have hρ := replays_run sha256 k calls
  rw [AuditVerifier.verify_eq_ok_iff, AuditVerifier.new]
  constructor
  · rintro ⟨hmode, hrecord, e, he, hleaf, hroot, hindex, hdisclosed⟩
    have hvalid := hρ.valid_of_lastUnder he
    refine ⟨hmode, hrecord, _, hρ.query_of_lastUnder he,
      (Anchored.verify_stored hvalid _).1 hleaf, ?_⟩
    obtain ⟨_, hroot⟩ := merkleRoot_eq_ok_iff.1 hroot
    cases ev
    simp_all [Anchored.stored, storedOf]
  · rintro ⟨hmode, hrecord, stored, hquery, hok, rfl⟩
    -- The key has been anchored under, since the query succeeded.
    cases he : (run sha256 k calls).lastUnder bundle.indexKey with
    | none =>
      rw [hρ.query_eq, he] at hquery
      cases hquery
    | some e =>
      have hvalid := hρ.valid_of_lastUnder he
      rw [hρ.query_of_lastUnder he, Except.ok.injEq] at hquery
      subst hquery
      rcases (Anchored.verify_stored hvalid _).2 hok with hleaf | hc
      · refine .inl ⟨hmode, hrecord, e, he, hleaf, ?_, rfl, rfl⟩
        exact merkleRoot_eq _ hvalid.ne_nil
      · exact .inr ⟨e, _, rfl, hρ.query_of_lastUnder he, hc⟩

/-- The leaves of three records of one byte. -/
def leavesOfBytes : List Hash := [[1], [2], [3]].map (Bsv.doubleSha256 Sha256.digest)

/-- The last of the three records, anchored under a key. -/
def lastCall : AnchorCall where
  key := keyOfThree
  leaves := leavesOfBytes
  leafIndex := 2

/-- Over an earlier proof under the key, the last of three records is anchored, and then
    audited. -/
theorem audit_sound_complete_overwritten :
    (AuditVerifier.new (run Sha256.digest 1 [paddedCall, lastCall]).store).verify Sha256.digest
      { indexKey := keyOfThree, disclosedRecord := [3]
        leaf := Bsv.doubleSha256 Sha256.digest [3], mode := .adversarial } =
      .ok { merkleRoot := rootOf (Merkle.hashPair Sha256.digest) leavesOfBytes, leafIndex := 2
            disclosedRecord := [3] } :=
  have hlast : (run Sha256.digest 1 [paddedCall, lastCall]).lastUnder keyOfThree =
      some { call := lastCall, root := rootOf (Merkle.hashPair Sha256.digest) leavesOfBytes } := by
    rw [Run.lastUnder, log_run]
    rfl
  (audit_sound_complete Sha256.digest 1 [paddedCall, lastCall] _ _).1
    ⟨rfl, rfl, _, hlast, rfl, merkleRoot_eq _ (by decide), rfl, rfl⟩

end Vaa
