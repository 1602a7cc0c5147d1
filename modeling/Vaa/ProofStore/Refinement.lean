import Vaa.ProofStore.Run

/-!
# What a run leaves in the store

* The store is a map from the index keys to the last calls that wrote them: a call
  fails, and then changes nothing, exactly when it names no leaf, and a query finds
  the proof of the last successful call under its key (`refines_last_writer`);
* the labels published for a root hash up to it, and there are labels for the root
  of every stored proof, so assisted verification of a stored proof is decided by
  the label its walk reaches (`labels_hash_to_root`);
* the assisted verifier only accepts anchored roots (`assisted_root_anchored`), but
  the plain one reads nothing of the store: it compares a presentation with the root
  the presentation itself expects, anchored or not (`anchored_root_iff`).
-/

namespace Vaa.ProofStore

open PairTree Merkle KeyedLog

variable {sha256 : Bytes → Hash} {k : ℕ} {ρ : Run} {key : IndexKey} {e : Anchored}

/-! ## The last writer -/

/-- The call names no leaf. -/
def AnchorCall.Bad (call : AnchorCall) : Prop :=
  call.leaves = [] ∨ call.leaves.length ≤ call.leafIndex

theorem AnchorCall.bad_iff {call : AnchorCall} :
    call.Bad ↔ call.leaves.length ≤ call.leafIndex := by
  refine ⟨?_, .inr⟩
  rintro (hnil | hle)
  · rw [hnil]
    exact Nat.zero_le _
  · exact hle

/-- A call fails exactly when it names no leaf, and succeeds otherwise; failing, it
    leaves the store as it is. -/
theorem anchor_outcome (sha256 : Bytes → Hash) (store : ProofStore) (call : AnchorCall) :
    ((∃ e, (store.anchor sha256 call.key call.leaves call.leafIndex).2 = .error (.err e)) ↔
      call.Bad) ∧
    ((∃ r, (store.anchor sha256 call.key call.leaves call.leafIndex).2 = .ok r) ↔ ¬call.Bad) ∧
    (call.Bad → (store.anchor sha256 call.key call.leaves call.leafIndex).1 = store) := by
  by_cases hbad : call.leaves.length ≤ call.leafIndex
  · rw [AnchorCall.bad_iff, anchor_of_le _ _ _ hbad]
    simp [hbad]
  · rw [AnchorCall.bad_iff, anchor_eq _ _ _ (not_le.1 hbad)]
    simp [hbad]

/-- The proof stored by a valid call is the one of its leaf, against the root of its
    leaves. -/
theorem Anchored.Valid.proves (hvalid : e.Valid sha256) (k : ℕ) :
    merkleRoot (Merkle.hashPair sha256) e.call.leaves = .ok (e.stored sha256 k).expectedRoot ∧
      merkleProof (Merkle.hashPair sha256) e.call.leaves e.call.leafIndex =
        .ok (e.stored sha256 k).reassemble := by
  refine ⟨merkleRoot_eq _ hvalid.ne_nil, ?_⟩
  rw [merkleProof_eq _ hvalid.index_lt, Anchored.stored, reassemble_storedOf]

/-- The store refines a last-writer map. Along every run, a call fails exactly when it
    names no leaf, and then changes nothing; at the end, a query under a key finds the
    proof of the last successful call under it, if there is one. -/
theorem refines_last_writer (sha256 : Bytes → Hash) (k : ℕ) (calls : List AnchorCall) :
    (∀ before call after, calls = before ++ call :: after →
      let store := (run sha256 k before).store
      let result := store.anchor sha256 call.key call.leaves call.leafIndex
      ((∃ e, result.2 = .error (.err e)) ↔
        call.leaves = [] ∨ call.leaves.length ≤ call.leafIndex) ∧
      ((∃ r, result.2 = .ok r) ↔ ¬(call.leaves = [] ∨ call.leaves.length ≤ call.leafIndex)) ∧
      ∀ e, result.2 = .error (.err e) → result.1.storage = store.storage ∧
        result.1.assistanceByRoot = store.assistanceByRoot) ∧
    ∀ key, match (run sha256 k calls).lastUnder key with
      | none => (run sha256 k calls).store.query key = .error (.err .keyNotFound)
      | some e => ∃ stored, (run sha256 k calls).store.query key = .ok stored ∧
        stored.key = key ∧ stored.leafIndex = e.call.leafIndex ∧
        merkleRoot (Merkle.hashPair sha256) e.call.leaves = .ok stored.expectedRoot ∧
        merkleProof (Merkle.hashPair sha256) e.call.leaves e.call.leafIndex =
          .ok stored.reassemble := by
  constructor
  · intro before call after _
    obtain ⟨hfails, hok, hstays⟩ := anchor_outcome sha256 (run sha256 k before).store call
    refine ⟨hfails, hok, ?_⟩
    intro e he
    have hsame := hstays (hfails.1 ⟨e, he⟩)
    exact ⟨congrArg storage hsame, congrArg assistanceByRoot hsame⟩
  · intro key
    have hρ := replays_run sha256 k calls
    cases he : (run sha256 k calls).lastUnder key with
    | none =>
      rw [hρ.query_eq, he]
      rfl
    | some e =>
      obtain ⟨hroot, hproof⟩ := (hρ.valid_of_lastUnder he).proves k
      have hkey := key_of_last he
      exact ⟨_, hρ.query_of_lastUnder he, hkey, rfl, hroot, hproof⟩

/-! ## The labels published -/

/-- The labels a root is served with are those of a valid call returning it. -/
theorem Replays.exists_of_assistance (hρ : Replays sha256 k ρ) {r : Hash} {a : ProofAssistance}
    (ha : ρ.store.proofAssistanceFor r = some a) :
    ∃ e ∈ ρ.log, e.Valid sha256 ∧ e.root = r ∧ a = assistanceOf sha256 k e.call.leaves := by
  rw [proofAssistanceFor, hρ.assistance, replay_apply, Option.map_eq_some_iff] at ha
  obtain ⟨e, he, rfl⟩ := ha
  exact ⟨e, mem_of_last he, hρ.valid e (mem_of_last he), key_of_last he, rfl⟩

/-- A stored proof is the one of a valid call, whose root is served labels hashing up
    to it. -/
theorem Replays.exists_assistance (hρ : Replays sha256 k ρ) {stored : StoredProof}
    (hstored : ρ.store.storage key = some stored) :
    ∃ a, ρ.store.proofAssistanceFor stored.expectedRoot = some a ∧
      merkleRoot (Merkle.hashPair sha256) a.nodeLabels = .ok stored.expectedRoot := by
  rw [hρ.storage, replay_apply, Option.map_eq_some_iff] at hstored
  obtain ⟨e, he, rfl⟩ := hstored
  obtain ⟨e', -, hroot, hvalid', hp⟩ := hρ.publishes he
  have hexpected : (e.stored sha256 k).expectedRoot =
      rootOf (Merkle.hashPair sha256) e'.call.leaves := by
    rw [← hvalid'.root_eq, hroot, (hρ.valid_of_lastUnder he).root_eq]
    rfl
  rw [hexpected]
  exact ⟨_, hp.labels, merkleRoot_nodeLabels sha256 k hp.ne_nil⟩

/-- Along every run, the labels published for a root hash up to it, and every stored
    proof finds labels hashing up to the root it expects. So assisted verification of a
    stored proof ends with the comparison of a label: the labels are never missing, and
    never fail to hash up to the root. -/
theorem labels_hash_to_root (sha256 : Bytes → Hash) (k : ℕ) (calls : List AnchorCall) :
    let store := (run sha256 k calls).store
    (∀ r a, store.proofAssistanceFor r = some a → a.nodeLabels ≠ [] ∧
      a.predeterminedLevel ≤ k ∧ merkleRoot (Merkle.hashPair sha256) a.nodeLabels = .ok r) ∧
    (∀ key stored, store.storage key = some stored →
      ∃ a, store.proofAssistanceFor stored.expectedRoot = some a) ∧
    ∀ key stored, store.query key = .ok stored → ∃ a,
      store.proofAssistanceFor stored.expectedRoot = some a ∧
      merkleRoot (Merkle.hashPair sha256) a.nodeLabels = .ok stored.expectedRoot ∧
      ∀ x, store.verifyWithAssistance sha256 x stored =
        if a.nodeLabels[stored.leafIndex / 2 ^ (usedSiblings a.predeterminedLevel stored).length]? =
            some (walk (Merkle.hashPair sha256) x stored.leafIndex
              (usedSiblings a.predeterminedLevel stored)) then
          .ok ()
        else
          .error (.err .assistanceMismatch) := by
  have hρ := replays_run sha256 k calls
  refine ⟨?_, ?_, ?_⟩
  · intro r a ha
    obtain ⟨e, -, hvalid, rfl, rfl⟩ := hρ.exists_of_assistance ha
    have hlabels := merkleRoot_nodeLabels sha256 k hvalid.ne_nil
    exact ⟨(merkleRoot_eq_ok_iff.1 hlabels).1, min_le_left _ _, hvalid.root_eq ▸ hlabels⟩
  · intro key stored hstored
    obtain ⟨a, ha, -⟩ := hρ.exists_assistance hstored
    exact ⟨a, ha⟩
  · intro key stored hquery
    obtain ⟨a, ha, hroot⟩ := hρ.exists_assistance (query_eq_ok_iff.1 hquery)
    refine ⟨a, ha, hroot, fun x => ?_⟩
    rw [proofAssistanceFor] at ha
    simp only [verifyWithAssistance_eq, ha, hroot, if_true]

/-! ## The roots accepted -/

/-- The roots returned by the successful calls of a run. -/
def Run.roots (ρ : Run) : List Hash := ρ.log.map fun e => e.root

/-- After every run, the assisted verifier accepts a presentation only of an anchored
    root: the labels it looks up are those of one. -/
theorem assisted_root_anchored (sha256 : Bytes → Hash) (k : ℕ) (calls : List AnchorCall)
    (x : Hash) (s : StoredProof)
    (hok : (run sha256 k calls).store.verifyWithAssistance sha256 x s = .ok ()) :
    s.expectedRoot ∈ (run sha256 k calls).roots := by
  obtain ⟨a, ha, -⟩ := verifyWithAssistance_eq_ok_iff.1 hok
  obtain ⟨e, hmem, -, hroot, -⟩ := (replays_run sha256 k calls).exists_of_assistance ha
  rw [← hroot, Run.roots]
  exact List.mem_map_of_mem hmem

/-- A presentation of a root as its own leaf, without any shard. -/
def rootAlone (key : IndexKey) (r : Hash) : StoredProof where
  key := key
  leafIndex := 0
  shards := []
  expectedRoot := r

/-- The plain verifier accepts every value as its own root. -/
theorem verify_rootAlone (sha256 : Bytes → Hash) (key : IndexKey) (r : Hash) :
    verify sha256 r (rootAlone key r) .adversarial = .ok () :=
  verify_eq_ok_iff.2 rfl

/-- After every run, the presentations of a root that the plain verifier accepts are all
    of an anchored root exactly when the root is anchored: it accepts some of every root. -/
theorem anchored_root_iff (sha256 : Bytes → Hash) (k : ℕ) (calls : List AnchorCall) (r : Hash) :
    (∀ x s, s.expectedRoot = r → verify sha256 x s .adversarial = .ok () →
        s.expectedRoot ∈ (run sha256 k calls).roots) ↔
      r ∈ (run sha256 k calls).roots := by
  constructor
  · intro hsafe
    exact hsafe r (rootAlone keyOfThree r) rfl (verify_rootAlone sha256 keyOfThree r)
  · rintro hanchored x s rfl -
    exact hanchored

/-- With three leaves anchored, a value of no tree is accepted as a root. -/
theorem unanchored_root_accepted : ¬∀ (k : ℕ) (calls : List AnchorCall) (x : Hash)
    (s : StoredProof), verify Sha256.digest x s .adversarial = .ok () →
      s.expectedRoot ∈ (run Sha256.digest k calls).roots := by
  intro hall
  have hmem := hall 1 [threeCall] (Vector.replicate 32 9)
    (rootAlone keyOfThree (Vector.replicate 32 9)) (verify_rootAlone ..)
  revert hmem
  decide +kernel

end Vaa.ProofStore
