import Vaa.Api
import Vaa.Failure

/-!
# How the verifiers refuse

Whatever is presented to them, the verifiers end with a value or with an error: they never
panic, neither on a shard that belongs to no proof, nor on an index past the labels. The
errors tell what failed first.

* The assisted verifier, over any store, reports a root without labels, and a mismatch for
  everything else: the errors of the Merkle layer do not get through
  (`assisted_refuses_iff`).
* The audit verifier, after any run, reports the mode, the record, a key without a
  successful call, and the root, in this order (`audit_refuses_iff`).
-/

namespace Vaa

open PairTree Merkle ProofStore

namespace ProofStore

theorem verify_eq_error_iff {sha256 : Bytes → Hash} {x : Hash} {stored : StoredProof}
    {fault : Fault ProofStoreError} :
    verify sha256 x stored .adversarial = .error fault ↔
      walk (Merkle.hashPair sha256) x stored.leafIndex stored.reassemble.siblings ≠
        stored.expectedRoot ∧ fault = .err .rootMismatch := by
  simp only [verify, reconstructRoot_eq_walk, StoredProof.reassemble]
  split
  · next heq => exact iff_of_false Result.ok_ne_error fun h => h.1 heq
  · next hne => rw [Except.error.injEq, eq_comm, and_iff_right hne]

/-- The labels of a root and what a presentation walks to agree: a label is met, and the
    labels hash up to the root. -/
def Agrees (sha256 : Bytes → Hash) (a : ProofAssistance) (x : Hash) (stored : StoredProof) :
    Prop :=
  a.nodeLabels[stored.leafIndex / 2 ^ (usedSiblings a.predeterminedLevel stored).length]? =
      some (walk (Merkle.hashPair sha256) x stored.leafIndex
        (usedSiblings a.predeterminedLevel stored)) ∧
    rootOf (Merkle.hashPair sha256) a.nodeLabels = stored.expectedRoot

/-- The assisted verifier refuses a root it has no labels for, and a presentation that
    does not agree with the labels of its root. It never panics. -/
theorem assisted_refuses_iff (sha256 : Bytes → Hash) (store : ProofStore) (x : Hash)
    (stored : StoredProof) (fault : Fault ProofStoreError) :
    store.verifyWithAssistance sha256 x stored = .error fault ↔
      (store.assistanceByRoot stored.expectedRoot = none ∧ fault = .err .keyNotFound) ∨
      ∃ a, store.assistanceByRoot stored.expectedRoot = some a ∧
        ¬Agrees sha256 a x stored ∧ fault = .err .assistanceMismatch := by
  rw [verifyWithAssistance_eq]
  cases store.assistanceByRoot stored.expectedRoot with
  | none => simp [eq_comm]
  | some a =>
    simp only [reduceCtorEq, false_and, false_or, Option.some.injEq, exists_eq_left', Agrees]
    split
    · next hlabel =>
      -- There is a label, so the labels have a root.
      have hne : a.nodeLabels ≠ [] := by
        rintro hnil
        rw [hnil] at hlabel
        cases hlabel
      simp only [merkleRoot_eq _ hne, hlabel, true_and]
      split
      · next hroot => simp [hroot]
      · next hroot => simp [hroot, eq_comm]
    · next hlabel => simp [hlabel, eq_comm]

end ProofStore

/-- Why the audit verifier refuses a bundle after a run. -/
inductive Refuses (sha256 : Bytes → Hash) (ρ : Run) (bundle : AuditBundle) : ApiError → Prop
  | mode : bundle.mode = .trustedOperational → Refuses sha256 ρ bundle .nonAdversarialMode
  | record : bundle.mode = .adversarial →
      Bsv.doubleSha256 sha256 bundle.disclosedRecord ≠ bundle.leaf →
      Refuses sha256 ρ bundle .recordLeafMismatch
  | key : bundle.mode = .adversarial →
      Bsv.doubleSha256 sha256 bundle.disclosedRecord = bundle.leaf →
      ρ.lastUnder bundle.indexKey = none → Refuses sha256 ρ bundle (.proofStore .keyNotFound)
  | root {e : Anchored} : bundle.mode = .adversarial →
      Bsv.doubleSha256 sha256 bundle.disclosedRecord = bundle.leaf →
      ρ.lastUnder bundle.indexKey = some e →
      walk (Merkle.hashPair sha256) bundle.leaf e.call.leafIndex
        (path (Merkle.hashPair sha256) e.call.leaves e.call.leafIndex) ≠ e.root →
      Refuses sha256 ρ bundle (.proofStore .rootMismatch)

/-- A bundle whose record hashes to its leaf is refused for its key or its root only. -/
theorem refuses_iff_of_record {sha256 : Bytes → Hash} {ρ : Run} {bundle : AuditBundle}
    {err : ApiError} (hmode : bundle.mode = .adversarial)
    (hrecord : Bsv.doubleSha256 sha256 bundle.disclosedRecord = bundle.leaf) :
    Refuses sha256 ρ bundle err ↔
      (ρ.lastUnder bundle.indexKey = none ∧ err = .proofStore .keyNotFound) ∨
      ∃ e, ρ.lastUnder bundle.indexKey = some e ∧
        walk (Merkle.hashPair sha256) bundle.leaf e.call.leafIndex
          (path (Merkle.hashPair sha256) e.call.leaves e.call.leafIndex) ≠ e.root ∧
        err = .proofStore .rootMismatch := by
  constructor
  · intro h
    cases h with
    | mode htrusted =>
      rw [hmode] at htrusted
      cases htrusted
    | record _ hother => exact absurd hrecord hother
    | key _ _ hnone => exact .inl ⟨hnone, rfl⟩
    | root _ _ he hwalk => exact .inr ⟨_, he, hwalk, rfl⟩
  · intro h
    rcases h with ⟨hnone, rfl⟩ | ⟨e, he, hwalk, rfl⟩
    · exact .key hmode hrecord hnone
    · exact .root hmode hrecord he hwalk

/-- After any run, the audit verifier refuses exactly these bundles, with these errors. It
    never panics. -/
theorem audit_refuses_iff (sha256 : Bytes → Hash) (k : ℕ) (calls : List AnchorCall)
    (bundle : AuditBundle) (fault : Fault ApiError) :
    (AuditVerifier.new (run sha256 k calls).store).verify sha256 bundle = .error fault ↔
      ∃ e, fault = .err e ∧ Refuses sha256 (run sha256 k calls) bundle e := by
  -- After a run, a query finds the proof last anchored under the key.
  have hρ := replays_run sha256 k calls
  rw [AuditVerifier.verify, AuditVerifier.new]
  split
  · next hmode =>
    constructor
    · rintro ⟨⟩
      refine ⟨_, rfl, .mode ?_⟩
      cases htrusted : bundle.mode with
      | adversarial => exact absurd htrusted hmode
      | trustedOperational => rfl
    · rintro ⟨e, rfl, he⟩
      cases he with
      | mode => rfl
      | record hadversarial | key hadversarial | root hadversarial =>
        exact absurd hadversarial hmode
  · next hmode =>
    rw [not_not] at hmode
    simp only
    split
    · next hother =>
      constructor
      · rintro ⟨⟩
        exact ⟨_, rfl, .record hmode hother⟩
      · rintro ⟨e, rfl, he⟩
        cases he with
        | mode htrusted =>
          rw [hmode] at htrusted
          cases htrusted
        | record => rfl
        | key _ hrecord | root _ hrecord => exact absurd hrecord hother
    · next hrecord =>
      rw [not_not] at hrecord
      rw [Result.bind_eq_error_iff]
      simp only [Result.unit_bind_eq_error_iff, Result.mapErr_eq_error_iff, Result.mapErr_eq_ok_iff,
        verify_eq_error_iff, hρ.query_eq, refuses_iff_of_record hmode hrecord]
      cases hlast : (run sha256 k calls).lastUnder bundle.indexKey with
      | none =>
        constructor
        · intro h
          rcases h with ⟨_, ⟨⟩, rfl⟩ | ⟨_, ⟨⟩, -⟩
          exact ⟨_, rfl, .inl ⟨rfl, rfl⟩⟩
        · rintro ⟨_, rfl, ⟨-, rfl⟩ | ⟨_, ⟨⟩, -⟩⟩
          exact .inl ⟨_, rfl, rfl⟩
      | some e =>
        -- The proof found is the path of the leaf anchored, and its root that of the tree.
        have hreassemble : (e.stored sha256 k).reassemble.siblings =
            path (Merkle.hashPair sha256) e.call.leaves e.call.leafIndex :=
          congrArg MerkleProof.siblings (reassemble_storedOf ..)
        have hroot : (e.stored sha256 k).expectedRoot = e.root :=
          (hρ.valid_of_lastUnder hlast).root_eq.symm
        constructor
        · intro h
          rcases h with ⟨_, ⟨⟩, -⟩ | ⟨_, ⟨⟩, ⟨_, ⟨hwalk, rfl⟩, rfl⟩ | ⟨-, ⟨⟩⟩⟩
          rw [hreassemble, hroot] at hwalk
          exact ⟨_, rfl, .inr ⟨e, rfl, hwalk, rfl⟩⟩
        · rintro ⟨_, rfl, ⟨⟨⟩, -⟩ | ⟨_, ⟨⟩, hwalk, rfl⟩⟩
          refine .inr ⟨e.stored sha256 k, rfl, .inl ⟨_, ⟨?_, rfl⟩, rfl⟩⟩
          rwa [hreassemble, hroot]

end Vaa
