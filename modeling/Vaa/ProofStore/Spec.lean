import Vaa.ProofStore.Shards
import Vaa.Merkle.Tree

/-!
# What the operations of the store do

* `computeProofAssistance_eq`: the labels are the nodes of the tree at the level
  `min k (height n)`, the same tree as that of `vaa-merkle` (`tree_loops_agree`);
* `anchor_eq`: a call of `anchor` on the index of a leaf stores the proof of the
  leaf and publishes the labels of the tree (`anchored`); `anchor_of_le`: any
  other call fails and leaves the store as it is;
* `verify_eq_ok_iff`, `verifyWithAssistance_eq`: what the verifiers check, as walks
  up the tree.
-/

namespace Vaa.ProofStore

open PairTree Merkle

variable {sha256 : Bytes → Hash} {leaves : List Hash} {i k : ℕ}

/-- Both crates hash pairs alike. -/
theorem hashPair_eq (sha256 : Bytes → Hash) : hashPair sha256 = Merkle.hashPair sha256 := rfl

/-! ## Proof assistance -/

/-- The level of the labels published for the tree over `leaves`. -/
def labelLevel (k : ℕ) (leaves : List Hash) : ℕ := min k (height leaves.length)

theorem labelLevel_eq (k : ℕ) (leaves : List Hash) :
    labelLevel k leaves = min k (height leaves.length) := rfl

theorem labelLevel_le : labelLevel k leaves ≤ k := min_le_left _ _

theorem labelLevel_le_height : labelLevel k leaves ≤ height leaves.length := min_le_right _ _

/-- The proof assistance of the tree over `leaves`. -/
def assistanceOf (sha256 : Bytes → Hash) (k : ℕ) (leaves : List Hash) : ProofAssistance where
  predeterminedLevel := labelLevel k leaves
  nodeLabels :=
    level (Merkle.hashPair sha256) (leafAt leaves) leaves.length (labelLevel k leaves)

theorem assistanceLoop_of_lt {targetLevel currentLevel : ℕ} {level : List Hash}
    (htarget : currentLevel < targetLevel) (hlevel : 1 < level.length) :
    assistanceLoop sha256 targetLevel level currentLevel =
      assistanceLoop sha256 targetLevel (pairUp (Merkle.hashPair sha256) level)
        (currentLevel + 1) := by
  rw [assistanceLoop, if_pos ⟨htarget, hlevel⟩, hashPair_eq]
  rfl

theorem assistanceLoop_level (hne : leaves ≠ []) {l : ℕ} (hl : l ≤ labelLevel k leaves) :
    assistanceLoop sha256 k
        (level (Merkle.hashPair sha256) (leafAt leaves) leaves.length l) l =
      assistanceOf sha256 k leaves := by
  have hn : 0 < leaves.length := List.length_pos_iff.2 hne
  -- The loop goes on below the labels, and stops there.
  have hmore (l : ℕ) : l < k ∧ 1 < width leaves.length l ↔ l < labelLevel k leaves := by
    rw [one_lt_width_iff hn, labelLevel, lt_min_iff]
  induction hl using Nat.decreasingInduction with
  | self =>
    have hstop := mt (hmore (labelLevel k leaves)).1 (Nat.lt_irrefl _)
    rw [assistanceLoop, length_level, if_neg hstop, assistanceOf]
  | of_succ l hl ih =>
    obtain ⟨hk, hwidth⟩ := (hmore l).2 hl
    rw [assistanceLoop_of_lt hk (by simpa using hwidth), pairUp_level]
    exact ih

/-- `compute_proof_assistance` computes the labels of the tree. -/
theorem computeProofAssistance_eq (sha256 : Bytes → Hash) (k : ℕ) (hne : leaves ≠ []) :
    computeProofAssistance sha256 leaves k = .ok (assistanceOf sha256 k leaves) := by
  have hloop : assistanceLoop sha256 k
      (level (Merkle.hashPair sha256) (leafAt leaves) leaves.length 0) 0 =
      assistanceOf sha256 k leaves := assistanceLoop_level hne (Nat.zero_le _)
  rw [level_leafAt] at hloop
  rw [computeProofAssistance, if_neg hne, hloop]

/-- The labels hash up to the root. -/
theorem merkleRoot_nodeLabels (sha256 : Bytes → Hash) (k : ℕ) (hne : leaves ≠ []) :
    merkleRoot (Merkle.hashPair sha256) (assistanceOf sha256 k leaves).nodeLabels =
      .ok (root (Merkle.hashPair sha256) (leafAt leaves) leaves.length) := by
  have hn : 0 < leaves.length := List.length_pos_iff.2 hne
  have hlabels : (assistanceOf sha256 k leaves).nodeLabels ≠ [] := by
    rw [← List.length_pos_iff, assistanceOf, length_level]
    exact width_pos hn _
  rw [merkleRoot, if_neg hlabels]
  exact merkleRootLoop_level hn (min_le_right _ _)

/-! ## One tree -/

/-- The three copies of the tree loop compute one tree: `merkle_root` its root,
    `merkle_proof` the neighbours of the path of a leaf, and
    `compute_proof_assistance` the nodes of one of its levels. -/
theorem tree_loops_agree (sha256 : Bytes → Hash) (leaves : List Hash) (hne : leaves ≠ []) :
    ∃ D, IsLeast {l | width leaves.length l = 1} D ∧ D = Nat.clog 2 leaves.length ∧
      merkleRoot (Merkle.hashPair sha256) leaves =
        .ok (node (Merkle.hashPair sha256) leaves D 0) ∧
      (∀ i < leaves.length, ∃ proof, merkleProof (Merkle.hashPair sha256) leaves i = .ok proof ∧
        proof.siblings.length = D ∧ ∀ l < D, proof.siblings[l]? =
          some (node (Merkle.hashPair sha256) leaves l
            (min ((i >>> l) ^^^ 1) (width leaves.length l - 1)))) ∧
      ∀ k, computeProofAssistance sha256 leaves k = .ok
        { predeterminedLevel := min k D
          nodeLabels := (List.range (width leaves.length (min k D))).map
            (node (Merkle.hashPair sha256) leaves (min k D)) } := by
  have hn : 0 < leaves.length := List.length_pos_iff.2 hne
  refine ⟨height leaves.length, ⟨width_height hn, fun l hl => (width_eq_one_iff hn).1 hl⟩, rfl,
    merkleRoot_eq _ hne, fun i hi => ?_, fun k => computeProofAssistance_eq sha256 k hne⟩
  refine ⟨_, merkleProof_eq _ hi, length_path .., fun l hl => ?_⟩
  rw [getElem?_opening (by simpa using hi) hl, Nat.zero_add, Nat.shiftRight_eq_div_pow]

/-- Over three leaves, the labels of the level `1`. -/
theorem tree_loops_agree_three :
    ∃ D, IsLeast {l | width 3 l = 1} D ∧ D = Nat.clog 2 3 ∧
      merkleRoot (Merkle.hashPair Sha256.digest) threeLeaves =
        .ok (node (Merkle.hashPair Sha256.digest) threeLeaves D 0) ∧
      (∀ i < 3, ∃ proof, merkleProof (Merkle.hashPair Sha256.digest) threeLeaves i = .ok proof ∧
        proof.siblings.length = D ∧ ∀ l < D, proof.siblings[l]? =
          some (node (Merkle.hashPair Sha256.digest) threeLeaves l
            (min ((i >>> l) ^^^ 1) (width 3 l - 1)))) ∧
      ∀ k, computeProofAssistance Sha256.digest threeLeaves k = .ok
        { predeterminedLevel := min k D
          nodeLabels := (List.range (width 3 (min k D))).map
            (node (Merkle.hashPair Sha256.digest) threeLeaves (min k D)) } :=
  tree_loops_agree Sha256.digest threeLeaves (by decide)

/-! ## Shards -/

/-- The entry `anchor` stores under `key` for the leaf at `i`. -/
def storedOf (sha256 : Bytes → Hash) (k : ℕ) (key : IndexKey) (leaves : List Hash) (i : ℕ) :
    StoredProof where
  key := key
  leafIndex := i
  shards := shardProof { leafIndex := i, siblings := path (Merkle.hashPair sha256) leaves i } k
  expectedRoot := rootOf (Merkle.hashPair sha256) leaves

/-- The shards of a stored proof recombine into the proof of its leaf. -/
theorem reassemble_storedOf (sha256 : Bytes → Hash) (k : ℕ) (key : IndexKey)
    (leaves : List Hash) (i : ℕ) : (storedOf sha256 k key leaves i).reassemble =
      { leafIndex := i, siblings := path (Merkle.hashPair sha256) leaves i } := by
  rw [StoredProof.reassemble, storedOf, flatMap_shardProof]

/-- The lower siblings of a stored proof, up to a level of labels. -/
theorem take_lowerSiblings {m : ℕ} (hm : m ≤ k) (key : IndexKey) :
    (lowerSiblings (storedOf sha256 k key leaves i)).take m =
      (path (Merkle.hashPair sha256) leaves i).take (min m (height leaves.length)) := by
  rw [lowerSiblings, storedOf, shardProof]
  by_cases hdepth : height leaves.length = 0
  · simp only [length_path, if_pos hdepth]
    simp [hdepth]
  · simp only [length_path, if_neg hdepth]
    split_ifs with hlow hup hup
    · simp [List.take_take, ← min_assoc, min_eq_left hm]
    · simp [List.take_take, ← min_assoc, min_eq_left hm]
    · -- The predetermined level is `0`: the upper shard starts there too, but
      -- nothing of it is taken.
      have hzero : m = 0 := by omega
      simp [hzero]
    · omega

/-! ## Anchoring -/

/-- The store after anchoring the leaf at `i` under `key`. -/
def anchored (sha256 : Bytes → Hash) (store : ProofStore) (key : IndexKey) (leaves : List Hash)
    (i : ℕ) : ProofStore where
  predeterminedLevel := store.predeterminedLevel
  storage := Function.update store.storage key
    (some (storedOf sha256 store.predeterminedLevel key leaves i))
  assistanceByRoot := Function.update store.assistanceByRoot
    (rootOf (Merkle.hashPair sha256) leaves)
    (some (assistanceOf sha256 store.predeterminedLevel leaves))

/-- Anchoring a leaf succeeds. -/
theorem anchor_eq (sha256 : Bytes → Hash) (store : ProofStore) (key : IndexKey)
    (hi : i < leaves.length) : store.anchor sha256 key leaves i =
      (anchored sha256 store key leaves i, .ok (rootOf (Merkle.hashPair sha256) leaves)) := by
  have hne : leaves ≠ [] := ne_nil_of_lt hi
  simp only [anchor, merkleRoot_eq _ hne, merkleProof_eq _ hi, computeProofAssistance_eq _ _ hne]
  rfl

/-- Any other call fails, and leaves the store as it is. -/
theorem anchor_of_le (sha256 : Bytes → Hash) (store : ProofStore) (key : IndexKey)
    (hi : leaves.length ≤ i) : store.anchor sha256 key leaves i =
      (store, .error (.err (.merkle
        (if leaves = [] then .emptyTree else .indexOutOfRange i leaves.length)))) := by
  rw [anchor]
  by_cases hne : leaves = []
  · subst hne
    simp [merkleRoot_nil, Fault.map]
  · simp [merkleRoot_eq _ hne, merkleProof, hne, hi, Fault.map]

theorem anchor_eq_ok_iff {store : ProofStore} {key : IndexKey} {r : Hash} :
    (store.anchor sha256 key leaves i).2 = .ok r ↔
      i < leaves.length ∧ r = rootOf (Merkle.hashPair sha256) leaves := by
  by_cases hi : i < leaves.length
  · rw [anchor_eq _ _ _ hi, Except.ok.injEq]
    exact ⟨fun hr => ⟨hi, hr.symm⟩, fun hr => hr.2.symm⟩
  · rw [anchor_of_le _ _ _ (Nat.not_lt.1 hi)]
    simp [hi]

/-! ## Verifying -/

theorem query_eq_ok_iff {store : ProofStore} {key : IndexKey} {stored : StoredProof} :
    store.query key = .ok stored ↔ store.storage key = some stored := by
  unfold query Result.okOr
  split <;> simp_all

/-- The plain verifier walks the reassembled shards to the expected root. -/
theorem verify_eq_ok_iff {x : Hash} {stored : StoredProof} :
    verify sha256 x stored .adversarial = .ok () ↔
      walk (Merkle.hashPair sha256) x stored.leafIndex stored.reassemble.siblings =
        stored.expectedRoot := by
  simp only [verify, reconstructRoot_eq_walk, StoredProof.reassemble]
  split <;> simp_all

/-- The siblings the assisted verifier walks up to labels of the level `k`. -/
def usedSiblings (k : ℕ) (stored : StoredProof) : List Hash := (lowerSiblings stored).take k

/-- Of a stored proof, they are the opening of its leaf, as far up. -/
theorem usedSiblings_storedOf {m : ℕ} {key : IndexKey} (hi : i < leaves.length) (hm : m ≤ k) :
    usedSiblings m (storedOf sha256 k key leaves i) =
      opening (Merkle.hashPair sha256) (leafAt leaves) leaves.length 0
        (min m (height leaves.length)) i := by
  rw [usedSiblings, take_lowerSiblings hm, path,
    take_opening (by simpa using hi) (min_le_right _ _)]

/-- The loop of the assisted verifier walks the used siblings. -/
theorem foldl_lowerSiblings (sha256 : Bytes → Hash) (x : Hash) (stored : StoredProof) (m : ℕ) :
    ((lowerSiblings stored).take m).foldl
      (fun (current, idx) sibling =>
        (if idx &&& 1 = 0 then hashPair sha256 current sibling
          else hashPair sha256 sibling current, idx >>> 1)) (x, stored.leafIndex) =
      (walk (Merkle.hashPair sha256) x stored.leafIndex (usedSiblings m stored),
        stored.leafIndex / 2 ^ (usedSiblings m stored).length) := by
  rw [← foldl_step, ← step_eq]
  rfl

/-- The assisted verifier walks the used siblings to a published label, and
    checks that the labels hash up to the expected root. -/
theorem verifyWithAssistance_eq (sha256 : Bytes → Hash) (store : ProofStore) (x : Hash)
    (stored : StoredProof) : store.verifyWithAssistance sha256 x stored =
      match store.assistanceByRoot stored.expectedRoot with
      | none => .error (.err .keyNotFound)
      | some a =>
        if a.nodeLabels[stored.leafIndex / 2 ^ (usedSiblings a.predeterminedLevel stored).length]? =
            some (walk (Merkle.hashPair sha256) x stored.leafIndex
              (usedSiblings a.predeterminedLevel stored)) then
          match merkleRoot (Merkle.hashPair sha256) a.nodeLabels with
          | .error e => .error (e.map .merkle)
          | .ok labelsRoot =>
            if labelsRoot = stored.expectedRoot then .ok ()
            else .error (.err .assistanceMismatch)
        else .error (.err .assistanceMismatch) := by
  rw [verifyWithAssistance, proofAssistanceFor]
  cases store.assistanceByRoot stored.expectedRoot with
  | none => rfl
  | some a =>
    simp only [foldl_lowerSiblings]
    split
    · next hout =>
      -- The index is past the labels.
      refine (if_neg ?_).symm
      rw [List.getElem?_eq_none hout]
      exact (Option.some_ne_none _).symm
    · next hin =>
      have hlabel := List.getElem?_eq_getElem (not_le.1 hin)
      simp only [Result.index_of_getElem? hlabel, ne_eq, ite_not]
      refine if_congr ?_ rfl rfl
      rw [hlabel, Option.some.injEq]

/-- The assisted verifier reads no other part of a presentation than its index, the root
    it expects and its used siblings. -/
theorem verifyWithAssistance_congr {store : ProofStore} {x : Hash} {s t : StoredProof}
    (hindex : t.leafIndex = s.leafIndex) (hroot : t.expectedRoot = s.expectedRoot)
    (hused : ∀ a, store.assistanceByRoot s.expectedRoot = some a →
      usedSiblings a.predeterminedLevel t = usedSiblings a.predeterminedLevel s) :
    store.verifyWithAssistance sha256 x t = store.verifyWithAssistance sha256 x s := by
  rw [verifyWithAssistance_eq, verifyWithAssistance_eq, hroot, hindex]
  cases ha : store.assistanceByRoot s.expectedRoot with
  | none => rfl
  | some a => simp only [hused a ha]

theorem verifyWithAssistance_eq_ok_iff {store : ProofStore} {x : Hash} {stored : StoredProof} :
    store.verifyWithAssistance sha256 x stored = .ok () ↔
      ∃ a, store.assistanceByRoot stored.expectedRoot = some a ∧
        a.nodeLabels[stored.leafIndex / 2 ^ (usedSiblings a.predeterminedLevel stored).length]? =
          some (walk (Merkle.hashPair sha256) x stored.leafIndex
            (usedSiblings a.predeterminedLevel stored)) ∧
        merkleRoot (Merkle.hashPair sha256) a.nodeLabels = .ok stored.expectedRoot := by
  rw [verifyWithAssistance_eq]
  cases store.assistanceByRoot stored.expectedRoot with
  | none => simp
  | some a =>
    simp only [Option.some.injEq, exists_eq_left']
    split
    · next hlabel =>
      cases merkleRoot (Merkle.hashPair sha256) a.nodeLabels with
      | error e => simp
      | ok labelsRoot => by_cases hroot : labelsRoot = stored.expectedRoot <;> simp [hroot, hlabel]
    · next hlabel => simp [hlabel]

end Vaa.ProofStore
