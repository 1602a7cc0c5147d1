import Vaa.ProofStore.Agreement
import Vaa.Api

/-!
# Stores of different levels

The predetermined level of a store decides where proofs are cut and which labels are
published, and nothing else. After the same calls, two stores of different levels serve the
same proofs and audit alike; the labels of the higher level are those
`compute_proof_assistance` computes from the labels of the lower one, taken for leaves; and
if the labels of a root are those of the tree of a stored proof, the assisted verifiers of
both levels accept the same leaves with it, up to a collision (`levels_agree`).
-/

namespace Vaa.ProofStore

open PairTree Merkle KeyedLog

variable {sha256 : Bytes → Hash} {k k' d : ℕ} {calls : List AnchorCall} {key : IndexKey}
  {leaves : List Hash} {i : ℕ} {x : Hash} {e : Anchored}

/-! ## Labels of labels -/

/-- A loop that starts higher up, and is to go as much higher, computes the same nodes. -/
theorem assistanceLoop_add (sha256 : Bytes → Hash) (targetLevel d : ℕ) (level : List Hash)
    (currentLevel : ℕ) :
    assistanceLoop sha256 (targetLevel + d) level (currentLevel + d) =
      { predeterminedLevel :=
          (assistanceLoop sha256 targetLevel level currentLevel).predeterminedLevel + d
        nodeLabels := (assistanceLoop sha256 targetLevel level currentLevel).nodeLabels } := by
  induction level, currentLevel using assistanceLoop.induct sha256 targetLevel with
  | case1 level currentLevel hmore padded next ih =>
    obtain ⟨htarget, hlevel⟩ := hmore
    rw [assistanceLoop_of_lt htarget hlevel, assistanceLoop_of_lt (Nat.add_lt_add_right htarget d)
      hlevel, Nat.add_right_comm]
    exact ih
  | case2 level currentLevel hstop =>
    have hstop' : ¬(currentLevel + d < targetLevel + d ∧ 1 < level.length) := by
      rwa [Nat.add_lt_add_iff_right]
    rw [assistanceLoop, if_neg hstop', assistanceLoop, if_neg hstop]

/-- Both levels end at the root. -/
theorem labelLevel_add (k d : ℕ) (leaves : List Hash) :
    labelLevel (d + labelLevel k leaves) leaves = labelLevel (k + d) leaves := by
  rw [labelLevel_eq, labelLevel_eq, labelLevel_eq]
  omega

/-- The labels `d` levels higher, unless the tree ends before, are those of the level `d`
    of the tree over the labels. -/
theorem computeProofAssistance_nodeLabels (sha256 : Bytes → Hash) (k d : ℕ) (hne : leaves ≠ []) :
    ∃ b, computeProofAssistance sha256 (assistanceOf sha256 k leaves).nodeLabels d = .ok b ∧
      assistanceOf sha256 (k + d) leaves =
        { predeterminedLevel :=
            (assistanceOf sha256 k leaves).predeterminedLevel + b.predeterminedLevel
          nodeLabels := b.nodeLabels } := by
  have hlabels : (assistanceOf sha256 k leaves).nodeLabels ≠ [] := by
    rw [← List.length_pos_iff, assistanceOf, length_level]
    exact width_pos (List.length_pos_iff.2 hne) _
  have hsame : assistanceOf sha256 (d + labelLevel k leaves) leaves =
      assistanceOf sha256 (k + d) leaves := by
    rw [assistanceOf, assistanceOf, labelLevel_add]
  -- The loop over the labels is the one over the leaves, from the labels on.
  have hloop : assistanceLoop sha256 (d + labelLevel k leaves)
      (assistanceOf sha256 k leaves).nodeLabels (0 + labelLevel k leaves) =
      assistanceOf sha256 (d + labelLevel k leaves) leaves := by
    rw [Nat.zero_add]
    exact assistanceLoop_level hne (le_min (Nat.le_add_left ..) labelLevel_le_height)
  refine ⟨_, by rw [computeProofAssistance, if_neg hlabels], ?_⟩
  rw [← hsame, ← hloop, assistanceLoop_add, Nat.add_comm]
  rfl

/-! ## Walks to the labels -/

/-- A walk that meets a node above a leaf meets those above it. -/
theorem walk_opening_of_meets {m m' : ℕ} (hi : i < leaves.length) (hm : m ≤ m')
    (hmeets : walk (Merkle.hashPair sha256) x i
      (opening (Merkle.hashPair sha256) (leafAt leaves) leaves.length 0 m i) =
        node (Merkle.hashPair sha256) leaves m (i / 2 ^ m)) :
    walk (Merkle.hashPair sha256) x i
      (opening (Merkle.hashPair sha256) (leafAt leaves) leaves.length 0 m' i) =
        node (Merkle.hashPair sha256) leaves m' (i / 2 ^ m') := by
  have htake : (opening (Merkle.hashPair sha256) (leafAt leaves) leaves.length 0 m' i).take m =
      opening (Merkle.hashPair sha256) (leafAt leaves) leaves.length 0 m i :=
    take_opening (by simpa using hi) hm
  have hleaf := walk_opening_leaf (Merkle.hashPair sha256) hi m'
  rw [← List.take_append_drop m (opening _ _ _ 0 m' i), htake, walk_append,
    walk_opening_leaf _ hi] at hleaf
  rw [← List.take_append_drop m (opening _ _ _ 0 m' i), htake, walk_append, hmeets]
  exact hleaf

/-- A walk that meets a node above a leaf is from this leaf, up to a collision. -/
theorem meets_leaf_or_collision {m : ℕ} (hi : i < leaves.length) (hm : m ≤ height leaves.length)
    (hmeets : walk (Merkle.hashPair sha256) x i
      (opening (Merkle.hashPair sha256) (leafAt leaves) leaves.length 0 m i) =
        node (Merkle.hashPair sha256) leaves m (i / 2 ^ m)) :
    x = leafAt leaves i ∨ Collision (Merkle.hashPair sha256)
      (walkPairs (Merkle.hashPair sha256) x i
        (opening (Merkle.hashPair sha256) (leafAt leaves) leaves.length 0 m i))
      (rootPairs (Merkle.hashPair sha256) leaves) := by
  have hlength := length_opening (Merkle.hashPair sha256) (leafAt leaves) leaves.length 0 m i
  have hin := div_lt_width (l := 0) hi m
  rw [rootPairs_eq _ (ne_nil_of_lt hi)]
  rcases walk_eq_node (Nat.zero_lt_of_lt hi) (by rwa [hlength, Nat.zero_add])
    (by rwa [hlength]) (by rwa [hlength, Nat.zero_add]) with ⟨hx, -⟩ | hc
  · rw [origin_of_lt (by simpa using hi)] at hx
    exact .inl hx
  · exact .inr hc

/-! ## Two levels -/

/-- The level plays no part in which calls succeed. -/
theorem log_eq (sha256 : Bytes → Hash) (k k' : ℕ) (calls : List AnchorCall) :
    (run sha256 k calls).log = (run sha256 k' calls).log := by
  rw [log_run, log_run]

theorem lastUnder_eq (sha256 : Bytes → Hash) (k k' : ℕ) (calls : List AnchorCall)
    (key : IndexKey) :
    (run sha256 k calls).lastUnder key = (run sha256 k' calls).lastUnder key := by
  rw [Run.lastUnder, Run.lastUnder, log_eq sha256 k k']

theorem lastAt_eq (sha256 : Bytes → Hash) (k k' : ℕ) (calls : List AnchorCall) (r : Hash) :
    (run sha256 k calls).lastAt r = (run sha256 k' calls).lastAt r := by
  rw [Run.lastAt, Run.lastAt, log_eq sha256 k k']

/-- A stored proof, but for its cut into shards. -/
def uncut (stored : StoredProof) : IndexKey × MerkleProof × Hash :=
  (stored.key, stored.reassemble, stored.expectedRoot)

/-- The proofs stored for a call at two levels are cut differently, and otherwise the same. -/
theorem uncut_stored (k k' : ℕ) (e : Anchored) :
    uncut (e.stored sha256 k) = uncut (e.stored sha256 k') := by
  rw [uncut, uncut, Anchored.stored, Anchored.stored, reassemble_storedOf, reassemble_storedOf]
  rfl

/-- The plain verifier does not read the cut. -/
theorem verify_stored_eq (sha256 : Bytes → Hash) (k k' : ℕ) (e : Anchored) (x : Hash)
    (mode : ReconstructionMode) :
    verify sha256 x (e.stored sha256 k) mode = verify sha256 x (e.stored sha256 k') mode := by
  cases mode with
  | adversarial =>
    rw [verify, verify, Anchored.stored, Anchored.stored, reassemble_storedOf, reassemble_storedOf]
    rfl
  | trustedOperational => rfl

/-- Nor does the audit verifier. -/
theorem audit_eq (sha256 : Bytes → Hash) (k k' : ℕ) (calls : List AnchorCall)
    (bundle : AuditBundle) :
    (AuditVerifier.new (run sha256 k calls).store).verify sha256 bundle =
      (AuditVerifier.new (run sha256 k' calls).store).verify sha256 bundle := by
  have hρ := replays_run sha256 k calls
  have hρ' := replays_run sha256 k' calls
  simp only [AuditVerifier.verify, AuditVerifier.new, hρ.query_eq, hρ'.query_eq,
    lastUnder_eq sha256 k k']
  cases (run sha256 k' calls).lastUnder bundle.indexKey with
  | none => rfl
  | some e =>
    have hfound (k : ℕ) : Result.mapErr ApiError.proofStore
        (Result.okOr (Option.map (Anchored.stored sha256 k) (some e)) .keyNotFound) =
        .ok (e.stored sha256 k) := rfl
    simp only [hfound, Result.ok_bind, verify_stored_eq sha256 k k']
    rfl

/-- If the labels of a root are those of the tree of a proof, the assisted verifier accepts
    at a level what it accepts below it; the converse holds up to a collision. -/
theorem assisted_levels {low high : ProofStore} (hlow : Publishes sha256 low k leaves)
    (hhigh : Publishes sha256 high (k + d) leaves) (hi : i < leaves.length) :
    (low.verifyWithAssistance sha256 x (storedOf sha256 k key leaves i) = .ok () →
      high.verifyWithAssistance sha256 x (storedOf sha256 (k + d) key leaves i) = .ok ()) ∧
    (high.verifyWithAssistance sha256 x (storedOf sha256 (k + d) key leaves i) = .ok () →
      low.verifyWithAssistance sha256 x (storedOf sha256 k key leaves i) = .ok () ∨
        Collision (Merkle.hashPair sha256)
          (assistedPairs sha256 high x (storedOf sha256 (k + d) key leaves i))
          (rootPairs (Merkle.hashPair sha256) leaves)) := by
  have hle : labelLevel k leaves ≤ labelLevel (k + d) leaves :=
    min_le_min_right _ (Nat.le_add_right k d)
  rw [hlow.verify_own_iff hi, hhigh.verify_own_iff hi, hhigh.assistedPairs_eq rfl,
    usedSiblings_own _ _ _ hi]
  refine ⟨walk_opening_of_meets hi hle, fun hmeets => ?_⟩
  rcases meets_leaf_or_collision hi labelLevel_le_height hmeets with rfl | hc
  · exact .inl (walk_opening_leaf _ hi _)
  · exact .inr hc

/-- A root has labels at both levels, or at none. -/
theorem proofAssistanceFor_eq_none_iff (sha256 : Bytes → Hash) (k k' : ℕ)
    (calls : List AnchorCall) (r : Hash) :
    (run sha256 k calls).store.proofAssistanceFor r = none ↔
      (run sha256 k' calls).store.proofAssistanceFor r = none := by
  have hlast : last (fun e => e.root) (run sha256 k calls).log r =
      last (fun e => e.root) (run sha256 k' calls).log r := lastAt_eq sha256 k k' calls r
  rw [proofAssistanceFor, proofAssistanceFor, (replays_run sha256 k calls).assistance,
    (replays_run sha256 k' calls).assistance, replay_apply, replay_apply, hlast,
    Option.map_eq_none_iff, Option.map_eq_none_iff]

/-- The labels of the higher level are computed from those of the lower one. -/
theorem exists_higher_labels {r : Hash} {a : ProofAssistance} (d : ℕ)
    (ha : (run sha256 k calls).store.proofAssistanceFor r = some a) :
    ∃ b, computeProofAssistance sha256 a.nodeLabels d = .ok b ∧
      (run sha256 (k + d) calls).store.proofAssistanceFor r = some
        { predeterminedLevel := a.predeterminedLevel + b.predeterminedLevel
          nodeLabels := b.nodeLabels } := by
  have hlow := replays_run sha256 k calls
  have hhigh := replays_run sha256 (k + d) calls
  rw [proofAssistanceFor, hlow.assistance, replay_apply, Option.map_eq_some_iff] at ha
  obtain ⟨e, he, rfl⟩ := ha
  obtain ⟨b, hb, hlabels⟩ := computeProofAssistance_nodeLabels sha256 k d
    (hlow.valid e (mem_of_last he)).ne_nil
  have hlast : last (fun e => e.root) (run sha256 (k + d) calls).log r = some e := by
    rw [← he]
    exact lastAt_eq sha256 (k + d) k calls r
  refine ⟨b, hb, ?_⟩
  rw [proofAssistanceFor, hhigh.assistance, replay_apply, hlast, Option.map_some, hlabels]

/-- At any level, a key serves the proof of its last call, and the root of this call the
    labels of the last call that anchored it. -/
theorem publishes_of_last {e' : Anchored} (k' : ℕ)
    (he : (run sha256 k calls).lastUnder key = some e)
    (he' : (run sha256 k calls).lastAt e.root = some e') :
    (run sha256 k' calls).store.query key = .ok (e.stored sha256 k') ∧
      Publishes sha256 (run sha256 k' calls).store k' e'.call.leaves := by
  have hρ := replays_run sha256 k' calls
  rw [lastUnder_eq sha256 k k'] at he
  rw [lastAt_eq sha256 k k'] at he'
  obtain ⟨e₁, hlast, -, -, hp⟩ := hρ.publishes he
  obtain rfl : e' = e₁ := Option.some.inj (he'.symm.trans hlast)
  exact ⟨hρ.query_of_lastUnder he, hp⟩

/-- After the same calls, a store and one of a level `d` higher serve the same proofs but
    for their cut into shards, and audit alike. The labels of the higher level are those
    `compute_proof_assistance` computes from the labels of the lower one, for the level `d`.
    If the labels published for the root of a stored proof are those of its own tree, what
    assisted verification accepts with it at the lower level it accepts at the higher one,
    and conversely up to a collision. -/
theorem levels_agree (sha256 : Bytes → Hash) (k d : ℕ) (calls : List AnchorCall) :
    let low := (run sha256 k calls).store
    let high := (run sha256 (k + d) calls).store
    (∀ key, uncut <$> low.query key = uncut <$> high.query key) ∧
    (∀ bundle, (AuditVerifier.new low).verify sha256 bundle =
      (AuditVerifier.new high).verify sha256 bundle) ∧
    (∀ r, low.proofAssistanceFor r = none ↔ high.proofAssistanceFor r = none) ∧
    (∀ r a, low.proofAssistanceFor r = some a → ∃ b,
      computeProofAssistance sha256 a.nodeLabels d = .ok b ∧ high.proofAssistanceFor r = some
        { predeterminedLevel := a.predeterminedLevel + b.predeterminedLevel
          nodeLabels := b.nodeLabels }) ∧
    ∀ key e e', (run sha256 k calls).lastUnder key = some e →
      (run sha256 k calls).lastAt e.root = some e' → e'.call.leaves = e.call.leaves →
      ∀ x s t, low.query key = .ok s → high.query key = .ok t →
        (low.verifyWithAssistance sha256 x s = .ok () →
          high.verifyWithAssistance sha256 x t = .ok ()) ∧
        (high.verifyWithAssistance sha256 x t = .ok () →
          low.verifyWithAssistance sha256 x s = .ok () ∨
            Collision (Merkle.hashPair sha256) (assistedPairs sha256 high x t)
              (rootPairs (Merkle.hashPair sha256) e.call.leaves)) := by
  intro low high
  have hlow := replays_run sha256 k calls
  have hhigh := replays_run sha256 (k + d) calls
  refine ⟨fun key => ?_, audit_eq sha256 k (k + d) calls,
    proofAssistanceFor_eq_none_iff sha256 k (k + d) calls, fun r a ha => exists_higher_labels d ha,
    ?_⟩
  · rw [hlow.query_eq, hhigh.query_eq, lastUnder_eq sha256 k (k + d)]
    cases (run sha256 (k + d) calls).lastUnder key with
    | none => rfl
    | some e => exact congrArg Except.ok (uncut_stored k (k + d) e)
  · intro key e e' he he' hleaves x s t hs ht
    obtain ⟨hquery, hp⟩ := publishes_of_last k he he'
    obtain ⟨hquery', hp'⟩ := publishes_of_last (k + d) he he'
    obtain rfl := Except.ok.inj (hquery.symm.trans hs)
    obtain rfl := Except.ok.inj (hquery'.symm.trans ht)
    rw [hleaves] at hp hp'
    exact assisted_levels hp hp' (hlow.valid_of_lastUnder he).index_lt

end Vaa.ProofStore
