import Vaa.Simstore.Storage
import Vaa.Simstudy.Faults

/-!
# The sample of the study

The study anchors a sample of the leaves of its population, evenly spaced from the first
one on (`inclusionIndices`), and then has each of them retrieved and verified
(`runInclusionSample`, `runSelectiveDisclosureChecks`). The sample has no index twice
and none out of range (`inclusionIndices_eq`), so each query finds the proof of its own
leaf, and both checks pass on the whole sample (`checks_pass`).
-/

namespace Vaa.Simstudy

open PairTree Merkle ProofStore Cli

/-- `key_for`, a copy of the one of the storage study. -/
def keyFor (index : ℕ) (leaf : Hash) : IndexKey := Simstore.keyFor index leaf

/-- `inclusion_indices`. -/
def inclusionIndices (overflowChecks : Bool) (len inclusionN : ℕ) :
    Result AnyhowError (List ℕ) :=
  (List.range inclusionN).mapM fun i => do
    let product ← machine overflowChecks (i * len < 2 ^ 64) (i * len % 2 ^ 64)
    return min (product / max inclusionN 1) (len - 1)

section Hash

variable (sha256 : Bytes → Hash)

/-- One turn of the loop of `main` that anchors the sample. -/
def anchorIndex (leaves : List Hash) (store : ProofStore) (i : ℕ) :
    Result AnyhowError ProofStore := do
  let leaf ← Result.index leaves i
  let (store, anchored) := store.anchor sha256 (keyFor i leaf) leaves i
  let _root ← anchored.mapErr ofProofStore
  return store

/-- The loop of `main` that anchors the sample. -/
def anchorAll (leaves : List Hash) (store : ProofStore) (indices : List ℕ) :
    Result AnyhowError ProofStore :=
  indices.foldlM (anchorIndex sha256 leaves) store

/-- One turn of the loop of `run_inclusion_sample`. -/
def checkInclusion (leaves : List Hash) (store : ProofStore) (passed i : ℕ) :
    Result AnyhowError ℕ := do
  let leaf ← Result.index leaves i
  let key := keyFor i leaf
  let stored ← (store.query key).mapErr ofProofStore
  (ProofStore.verify sha256 leaf stored .adversarial).mapErr ofProofStore
  return passed + 1

/-- `run_inclusion_sample`. -/
def runInclusionSample (leaves : List Hash) (indices : List ℕ) (store : ProofStore) :
    Result AnyhowError ℕ :=
  indices.foldlM (checkInclusion sha256 leaves store) 0

end Hash

/-- One turn of the loop of `run_selective_disclosure_checks`. -/
def checkDisclosure (leaves : List Hash) (store : ProofStore) (passed i : ℕ) :
    Result AnyhowError ℕ := do
  let leaf ← Result.index leaves i
  let key := keyFor i leaf
  let stored ← (store.query key).mapErr ofProofStore
  if stored.leafIndex ≠ i then
    return passed
  else
    return passed + 1

/-- `run_selective_disclosure_checks`. The records it is given are not read. -/
def runSelectiveDisclosureChecks (leaves : List Hash) (indices : List ℕ) (store : ProofStore) :
    Result AnyhowError ℕ :=
  indices.foldlM (checkDisclosure leaves store) 0

/-! ## Evenly spaced indices -/

/-- The indices of a sample of `n` out of `len`. -/
def spaced (len n : ℕ) : List ℕ := (List.range n).map fun i => i * len / n

section Spaced

variable {overflowChecks : Bool} {len n : ℕ}

@[simp] theorem length_spaced (len n : ℕ) : (spaced len n).length = n := by
  rw [spaced, List.length_map, List.length_range]

/-- The sample of a list that is not shorter starts with its first entry. -/
theorem spaced_succ (len n : ℕ) : spaced len (n + 1) =
    0 :: (List.range n).map fun i => (i + 1) * len / (n + 1) := by
  rw [spaced, List.range_succ_eq_map, List.map_cons, List.map_map, Nat.zero_mul, Nat.zero_div]
  rfl

theorem div_lt_of_lt {i : ℕ} (hn : n ≤ len) (hi : i < n) : i * len / n < len := by
  have hlen : 0 < len := Nat.zero_lt_of_lt (hi.trans_le hn)
  exact Nat.div_lt_of_lt_mul (Nat.mul_lt_mul_of_pos_right hi hlen)

/-- Each index of the sample is one of the list. -/
theorem lt_of_mem_spaced (hn : n ≤ len) {j : ℕ} (hj : j ∈ spaced len n) : j < len := by
  obtain ⟨i, hi, rfl⟩ := List.mem_map.1 hj
  exact div_lt_of_lt hn (List.mem_range.1 hi)

/-- The study samples these indices, without leaving the range of the words. -/
theorem inclusionIndices_eq (hn : n ≤ len) (hlen : len < 2 ^ 32) :
    inclusionIndices overflowChecks len n = .ok (spaced len n) := by
  rw [inclusionIndices, Result.mapM_eq_ok_iff, spaced, List.forall₂_map_right_iff,
    List.forall₂_same]
  intro i hi
  have hi := List.mem_range.1 hi
  have hproduct : i * len < 2 ^ 64 := by
    calc i * len ≤ 2 ^ 32 * len := Nat.mul_le_mul_right len (hi.le.trans (hn.trans hlen.le))
      _ < 2 ^ 32 * 2 ^ 32 := Nat.mul_lt_mul_of_pos_left hlen (Nat.two_pow_pos 32)
  rw [Result.bind_eq_ok_iff]
  refine ⟨i * len, machine_eq_ok_iff.2 ⟨fun _ => hproduct, Nat.mod_eq_of_lt hproduct⟩, ?_⟩
  rw [max_eq_left (Nat.one_le_of_lt hi), min_eq_left (Nat.le_sub_one_of_lt (div_lt_of_lt hn hi))]
  rfl

end Spaced

/-! ## The checks on the sample -/

section Checks

variable {sha256 : Bytes → Hash} {leaves : List Hash} {indices : List ℕ} {k : ℕ}
  {store : ProofStore}

/-- The store serves the proofs of these leaves, under their keys. -/
def ServesProofs (sha256 : Bytes → Hash) (k : ℕ) (leaves : List Hash) (indices : List ℕ)
    (store : ProofStore) : Prop :=
  ∀ i ∈ indices, store.query (keyFor i (leafAt leaves i)) =
    .ok (storedOf sha256 k (keyFor i (leafAt leaves i)) leaves i)

/-- The two studies anchor alike: the context of the errors apart. -/
theorem anchorIndex_eq_ok_iff {store' : ProofStore} {i : ℕ} :
    anchorIndex sha256 leaves store i = .ok store' ↔
      Simstore.anchorIndex sha256 leaves store i = .ok store' := by
  simp only [anchorIndex, Simstore.anchorIndex, keyFor, Result.bind_eq_ok_iff,
    Result.context_eq_ok_iff]

/-- Two loops, one over the results of the other, entry by entry. -/
theorem exists_between {α β : Type} {R : α → β → Prop} {S : β → α → Prop} {xs : List α}
    {ys : List β} (hR : List.Forall₂ R xs ys) (hS : List.Forall₂ S ys xs) :
    ∀ x ∈ xs, ∃ y, R x y ∧ S y x := by
  induction hR with
  | nil => exact fun x hx => absurd hx List.not_mem_nil
  | cons hxy _ ih =>
    obtain ⟨hyx, hS⟩ := List.forall₂_cons.1 hS
    intro x hx
    rcases List.mem_cons.1 hx with rfl | hx
    · exact ⟨_, hxy, hyx⟩
    · exact ih hS x hx

/-- After anchoring, the store serves the proofs of the sample. -/
theorem anchorAll_eq (sha256 : Bytes → Hash) (k : ℕ) (hlt : ∀ i ∈ indices, i < leaves.length)
    (hfits : ∀ i ∈ indices, i < 2 ^ 32) :
    ∃ store, anchorAll sha256 leaves (new k) indices = .ok store ∧
      ServesProofs sha256 k leaves indices store := by
  obtain ⟨store, hanchor, hquery, -⟩ := Simstore.anchorAll_eq sha256 k hlt hfits
  refine ⟨store, (Result.foldlM_eq_ok_congr fun c x c' => anchorIndex_eq_ok_iff).2 hanchor, ?_⟩
  simp only [Simstore.queryAll, Simstore.storedOfAll, Result.bind_eq_ok_iff,
    Result.mapM_eq_ok_iff] at hquery
  obtain ⟨keys, hkeys, hstored⟩ := hquery
  intro i hi
  obtain ⟨key, ⟨leaf, hleaf, hkey⟩, hexpect⟩ :=
    exists_between hkeys (List.forall₂_map_right_iff.1 hstored) i hi
  rw [Result.index_of_getElem? (getElem?_eq_leafAt (hlt i hi)), Except.ok.injEq] at hleaf
  subst hleaf
  obtain rfl := Except.ok.inj hkey
  change Simstore.expect (store.query (keyFor i (leafAt leaves i))) = _ at hexpect
  cases hquery : store.query (keyFor i (leafAt leaves i)) with
  | ok p =>
    rw [hquery] at hexpect
    exact congrArg Except.ok (Except.ok.inj hexpect)
  | error fault =>
    rw [hquery] at hexpect
    cases hexpect

/-- Each check passes on the whole sample. -/
theorem checks_pass (hserves : ServesProofs sha256 k leaves indices store)
    (hlt : ∀ i ∈ indices, i < leaves.length) :
    runInclusionSample sha256 leaves indices store = .ok indices.length ∧
      runSelectiveDisclosureChecks leaves indices store = .ok indices.length := by
  have hcount {f : ℕ → ℕ → Result AnyhowError ℕ} (hturn : ∀ i ∈ indices, ∀ n, f n i = .ok (n + 1)) :
      indices.foldlM f 0 = .ok indices.length := by
    rw [Result.foldlM_count hturn, Nat.zero_add]
  constructor
  · refine hcount fun i hi passed => ?_
    have hleaf := getElem?_eq_leafAt (hlt i hi)
    have hverify : ProofStore.verify sha256 (leafAt leaves i)
        (storedOf sha256 k (keyFor i (leafAt leaves i)) leaves i) .adversarial = .ok () := by
      rw [ProofStore.verify_eq_ok_iff, reassemble_storedOf]
      exact walk_path _ (hlt i hi)
    simp only [checkInclusion, Result.bind_eq_ok_iff, Result.mapErr_eq_ok_iff]
    exact ⟨_, Result.index_of_getElem? hleaf, _, hserves i hi, (), hverify, rfl⟩
  · refine hcount fun i hi passed => ?_
    have hleaf := getElem?_eq_leafAt (hlt i hi)
    simp only [checkDisclosure, Result.bind_eq_ok_iff, Result.mapErr_eq_ok_iff]
    exact ⟨_, Result.index_of_getElem? hleaf, _, hserves i hi, if_neg (not_not.2 rfl)⟩

end Checks

end Vaa.Simstudy
