import Vaa.Simstore.Basic
import Vaa.ProofStore.Run
import Mathlib.Algebra.BigOperators.Ring.List
import Mathlib.Algebra.Order.BigOperators.Group.Finset
import Mathlib.GroupTheory.GroupAction.Ring

/-!
# The bytes of the store

The study anchors distinct leaves under distinct keys, so that each query is served the
proof of its leaf, and the root the labels of the tree (`anchorAll_eq`). Of each proof,
as many siblings are in the lower shard as there are levels below the predetermined one
(`foldl_measureShard`), and the rest is the opening of the ancestor of the leaf at this
level: there are at most as many different upper shards as labels (`card_uppers_le`).

So the bytes are known exactly, but for the number of different upper shards
(`measureStoreBytes_eq`). With the predetermined level half way up, and at least every
second leaf queried, the shards take no more bytes than the proofs
(`storage_within_baseline`).
-/

namespace Vaa.Simstore

open PairTree Merkle ProofStore KeyedLog Cli

variable {sha256 : Bytes → Hash} {leaves : List Hash} {indices : List ℕ} {k : ℕ}

/-- The depth the study computes is the height of the tree. -/
theorem ceilLog2_eq_height (n : ℕ) : ceilLog2 n = height n := by
  rw [ceilLog2, height]
  split
  · next hn => exact (Nat.clog_of_right_le_one hn 2).symm
  · next hn =>
    refine eq_of_forall_ge_iff fun m => ?_
    rw [Nat.clog_le_iff_le_pow Nat.one_lt_two, Nat.log2_eq_log_two, Nat.succ_le_iff,
      Nat.log_lt_iff_lt_pow Nat.one_lt_two (by omega)]
    omega

/-! ## Anchoring and querying -/

/-- The calls of `anchor` the study makes. -/
def callsOf (leaves : List Hash) (indices : List ℕ) : List AnchorCall :=
  indices.map fun i => { key := keyFor i (leafAt leaves i), leaves := leaves, leafIndex := i }

theorem keyFor_inj {i j : ℕ} {x y : Hash} (hi : i < 2 ^ 32) (hj : j < 2 ^ 32)
    (hkey : keyFor i x = keyFor j y) : i = j := by
  have hpos := congrArg IndexKey.blockPosition hkey
  simp only [keyFor, if_pos hi, if_pos hj] at hpos
  have hnat := congrArg UInt32.toNat hpos
  rwa [UInt32.toNat_ofNat_of_lt' hi, UInt32.toNat_ofNat_of_lt' hj] at hnat

/-- The loop makes the calls one after the other. -/
theorem anchorAll_eq_run (ρ : Run) (hlt : ∀ i ∈ indices, i < leaves.length) :
    anchorAll sha256 leaves ρ.store indices =
      .ok ((callsOf leaves indices).foldl (Run.anchor sha256) ρ).store := by
  induction indices generalizing ρ with
  | nil => rfl
  | cons i indices ih =>
    have hi := hlt i List.mem_cons_self
    have hturn : anchorIndex sha256 leaves ρ.store i = .ok (ρ.anchor sha256
        { key := keyFor i (leafAt leaves i), leaves := leaves, leafIndex := i }).store := by
      rw [anchorIndex, Result.index_of_getElem? (getElem?_eq_leafAt hi), Run.anchor,
        anchor_eq _ _ _ hi]
      have hanchor := anchor_eq sha256 ρ.store (keyFor i (leafAt leaves i)) hi
      change (((ρ.store.anchor sha256 (keyFor i (leafAt leaves i)) leaves i).2.mapErr
        ofProofStore).context "anchor" >>= fun _ =>
          .ok (ρ.store.anchor sha256 (keyFor i (leafAt leaves i)) leaves i).1) = _
      rw [hanchor]
      rfl
    rw [anchorAll, List.foldlM_cons, hturn]
    exact ih _ fun j hj => hlt j (List.mem_cons_of_mem i hj)

/-- The stored proofs of some leaves. -/
def storedOfAll (sha256 : Bytes → Hash) (k : ℕ) (leaves : List Hash) (indices : List ℕ) :
    List StoredProof :=
  indices.map fun i => storedOf sha256 k (keyFor i (leafAt leaves i)) leaves i

/-- Each query is served the proof of its leaf, and the root the labels of the tree. -/
theorem anchorAll_eq (sha256 : Bytes → Hash) (k : ℕ)
    (hlt : ∀ i ∈ indices, i < leaves.length) (hfits : ∀ i ∈ indices, i < 2 ^ 32) :
    ∃ store, anchorAll sha256 leaves (new k) indices = .ok store ∧
      queryAll leaves store indices =
        .ok (storedOfAll sha256 k leaves indices) ∧
      (indices ≠ [] → store.proofAssistanceFor (rootOf (Merkle.hashPair sha256) leaves) =
        some (assistanceOf sha256 k leaves)) := by
  have hρ := replays_run sha256 k (callsOf leaves indices)
  have hlog : (run sha256 k (callsOf leaves indices)).log = indices.map fun i =>
      { call := { key := keyFor i (leafAt leaves i), leaves := leaves, leafIndex := i }
        root := rootOf (Merkle.hashPair sha256) leaves } := by
    rw [log_run, List.filter_eq_self.2, callsOf, List.map_map]
    · rfl
    · intro call hcall
      obtain ⟨i, hi, rfl⟩ := List.mem_map.1 hcall
      simpa using hlt i hi
  have hlast : ∀ i ∈ indices, (run sha256 k (callsOf leaves indices)).lastUnder
      (keyFor i (leafAt leaves i)) = some
        { call := { key := keyFor i (leafAt leaves i), leaves := leaves, leafIndex := i }
          root := rootOf (Merkle.hashPair sha256) leaves } := by
    intro i hi
    rw [Run.lastUnder, hlog]
    refine last_of_unique (fun e : Anchored => e.call.key) (List.mem_map.2 ⟨i, hi, rfl⟩) ?_
    intro e he hkey
    obtain ⟨j, hj, rfl⟩ := List.mem_map.1 he
    obtain rfl := keyFor_inj (hfits j hj) (hfits i hi) hkey
    rfl
  refine ⟨_, anchorAll_eq_run ⟨new k, []⟩ hlt, ?_, ?_⟩
  · have hkeys : (indices.mapM fun i => do
          let leaf ← Result.index leaves i
          return keyFor i leaf : Result AnyhowError (List IndexKey)) =
        .ok (indices.map fun i => keyFor i (leafAt leaves i)) := by
      rw [Result.mapM_eq_ok_iff, List.forall₂_map_right_iff, List.forall₂_same]
      intro i hi
      rw [Result.index_of_getElem? (getElem?_eq_leafAt (hlt i hi))]
      rfl
    rw [queryAll, hkeys]
    change List.mapM _ _ = _
    rw [Result.mapM_eq_ok_iff, List.forall₂_map_left_iff, storedOfAll,
      List.forall₂_map_right_iff, List.forall₂_same]
    intro i hi
    have hquery := hρ.query_of_lastUnder (hlast i hi)
    exact congrArg expect hquery
  · intro hne
    obtain ⟨i, hi⟩ := List.exists_mem_of_ne_nil _ hne
    obtain ⟨e', he', hroot, hvalid, hp⟩ := hρ.publishes (hlast i hi)
    have hmem := mem_of_last he'
    rw [hlog] at hmem
    obtain ⟨j, hj, rfl⟩ := List.mem_map.1 hmem
    exact hp.labels

/-! ## Measuring -/

theorem length_reassemble (p : StoredProof) :
    p.reassemble.siblings.length = proofTotalSiblings p := by
  rw [StoredProof.reassemble, List.length_flatMap, proofTotalSiblings]

/-- In full, the bytes are those of the proofs. -/
theorem measureStoreBytes_fst (stored : List StoredProof) (k a : ℕ) :
    (measureStoreBytes stored k a).1 =
      (stored.map fun p => proofTotalSiblings p * hashBytes).sum + a := by
  have hproof (p : StoredProof) :
      (p.shards.map fun s => s.siblings.length * hashBytes).sum =
        proofTotalSiblings p * hashBytes := by
    rw [proofTotalSiblings, List.sum_map_mul_right]
  change ((stored.flatMap fun p => p.shards).map fun s => s.siblings.length * hashBytes).sum + a = _
  rw [List.map_flatMap, List.flatMap_def, List.sum_flatten, List.map_map]
  simp only [Function.comp_def, hproof]

/-- Of a proof, the siblings below the predetermined level are counted, and the others
    are one upper shard. -/
theorem foldl_measureShard (proof : MerkleProof) (k : ℕ) (acc : ℕ × Finset (List Hash)) :
    (shardProof proof k).foldl (measureShard k) acc =
      (acc.1 + min k proof.siblings.length * hashBytes,
        if k < proof.siblings.length then insert (proof.siblings.drop k) acc.2 else acc.2) := by
  rw [shardProof]
  by_cases hdepth : proof.siblings.length = 0
  · simp [hdepth]
  · simp only [if_neg hdepth]
    rcases Nat.lt_or_ge k proof.siblings.length with hlt | hge
    · have hmin : min k proof.siblings.length = k := min_eq_left hlt.le
      rw [hmin, if_pos hlt, if_pos hlt]
      rcases Nat.eq_zero_or_pos k with rfl | hpos
      · simp [measureShard]
      · simp [measureShard, hpos, hlt.le]
    · have hmin : min k proof.siblings.length = proof.siblings.length := min_eq_right hge
      have hpos : 0 < proof.siblings.length := Nat.pos_of_ne_zero hdepth
      rw [hmin, if_pos hpos, if_neg (Nat.lt_irrefl _), if_neg (Nat.not_lt.2 hge)]
      simp [measureShard, hpos.trans_le hge]

/-- The upper shards of the proofs of some leaves: the openings of their ancestors at the
    predetermined level. -/
def uppers (sha256 : Bytes → Hash) (k : ℕ) (leaves : List Hash) (indices : List ℕ) :
    Finset (List Hash) :=
  if k < height leaves.length then
    (indices.map fun i => opening (Merkle.hashPair sha256) (leafAt leaves) leaves.length k
      (height leaves.length - k) (i / 2 ^ k)).toFinset
  else
    ∅

/-- There are no more upper shards than nodes at the predetermined level. -/
theorem card_uppers_le (sha256 : Bytes → Hash) (k : ℕ)
    (hlt : ∀ i ∈ indices, i < leaves.length) :
    (uppers sha256 k leaves indices).card ≤ width leaves.length k := by
  rw [uppers]
  split
  · -- Leaves with one ancestor at the level have one upper shard.
    have hsubset : (indices.map fun i => opening (Merkle.hashPair sha256) (leafAt leaves)
        leaves.length k (height leaves.length - k) (i / 2 ^ k)).toFinset ⊆
        (Finset.range (width leaves.length k)).image fun q =>
          opening (Merkle.hashPair sha256) (leafAt leaves) leaves.length k
            (height leaves.length - k) q := by
      intro v hv
      obtain ⟨i, hi, rfl⟩ := List.mem_map.1 (List.mem_toFinset.1 hv)
      have hup := div_lt_width (l := 0) (hlt i hi) k
      rw [Nat.zero_add] at hup
      exact Finset.mem_image.2 ⟨_, Finset.mem_range.2 hup, rfl⟩
    refine (Finset.card_le_card hsubset).trans (Finset.card_image_le.trans ?_)
    rw [Finset.card_range]
  · exact Nat.zero_le _

theorem sum_uppers (sha256 : Bytes → Hash) (k : ℕ) (leaves : List Hash) (indices : List ℕ) :
    ∑ v ∈ uppers sha256 k leaves indices, v.length * hashBytes =
      (uppers sha256 k leaves indices).card * ((height leaves.length - k) * hashBytes) := by
  refine Finset.sum_const_nat fun v hv => ?_
  rw [uppers] at hv
  split at hv
  · obtain ⟨i, -, rfl⟩ := List.mem_map.1 (List.mem_toFinset.1 hv)
    rw [length_opening]
  · exact absurd hv (Finset.notMem_empty v)

theorem proofTotalSiblings_storedOf (sha256 : Bytes → Hash) (k : ℕ) (key : IndexKey)
    (leaves : List Hash) (i : ℕ) :
    proofTotalSiblings (storedOf sha256 k key leaves i) = height leaves.length := by
  rw [← length_reassemble, reassemble_storedOf]
  exact length_path ..

/-- The siblings of the stored proofs are those of a full proof for each leaf. -/
theorem sum_proofTotalSiblings (sha256 : Bytes → Hash) (k : ℕ) (leaves : List Hash)
    (indices : List ℕ) :
    ((storedOfAll sha256 k leaves indices).map fun p => proofTotalSiblings p * hashBytes).sum =
      indices.length * height leaves.length * hashBytes := by
  rw [storedOfAll, List.map_map]
  simp only [Function.comp_def, proofTotalSiblings_storedOf, List.map_const',
    List.sum_replicate_nat, Nat.mul_assoc]

/-- The loops count the lower siblings of the proofs, and collect their upper shards. -/
theorem foldl_storedOfAll (hlt : ∀ i ∈ indices, i < leaves.length) (lower : ℕ)
    (upper : Finset (List Hash)) :
    (storedOfAll sha256 k leaves indices).foldl
      (fun acc p => p.shards.foldl (measureShard k) acc) (lower, upper) =
      (lower + indices.length * (min k (height leaves.length) * hashBytes),
        upper ∪ uppers sha256 k leaves indices) := by
  induction indices generalizing lower upper with
  | nil => simp [storedOfAll, uppers]
  | cons i indices ih =>
    have hi : i < width leaves.length 0 := hlt i List.mem_cons_self
    have hcons : storedOfAll sha256 k leaves (i :: indices) =
        storedOf sha256 k (keyFor i (leafAt leaves i)) leaves i ::
          storedOfAll sha256 k leaves indices := rfl
    rw [hcons, List.foldl_cons, storedOf, foldl_measureShard, length_path,
      ih fun j hj => hlt j (List.mem_cons_of_mem i hj)]
    refine Prod.ext ?_ ?_
    · rw [List.length_cons, Nat.succ_mul, Nat.add_assoc, Nat.add_comm (indices.length * _)]
    · simp only [uppers]
      split
      · next hk =>
        rw [path, drop_opening hi hk.le, Nat.zero_add, List.map_cons, List.toFinset_cons,
          Finset.insert_union, Finset.union_insert]
      · rfl

/-- The bytes of the stored proofs, with labels of `a` bytes. -/
theorem measureStoreBytes_eq (sha256 : Bytes → Hash) (k a : ℕ)
    (hlt : ∀ i ∈ indices, i < leaves.length) :
    measureStoreBytes (storedOfAll sha256 k leaves indices) k a =
      (indices.length * height leaves.length * hashBytes + a,
        indices.length * (min k (height leaves.length) * hashBytes) +
          (uppers sha256 k leaves indices).card * ((height leaves.length - k) * hashBytes) + a,
        indices.length * (min k (height leaves.length) * hashBytes) + a) := by
  have hfull := measureStoreBytes_fst (storedOfAll sha256 k leaves indices) k a
  rw [sum_proofTotalSiblings] at hfull
  refine Prod.ext hfull ?_
  simp only [measureStoreBytes, foldl_storedOfAll hlt, Nat.zero_add, Finset.empty_union,
    sum_uppers]

/-! ## Never more than the proofs -/

/-- Half way up a tree over at least sixteen leaves, the labels and an upper shard for
    each of them are no more hashes than the upper halves of the proofs of every second
    leaf. -/
theorem labels_le_uppers {n q : ℕ} (hn : 16 ≤ n) (hq : n / 2 ≤ q) :
    width n (height n / 2) * (height n - height n / 2) + width n (height n / 2) ≤
      q * (height n - height n / 2) := by
  have hheight : 4 ≤ height n := by
    rw [← Nat.lt_iff_add_one_le, height, Nat.lt_clog_iff_pow_lt Nat.one_lt_two]
    exact lt_of_lt_of_le (by decide) hn
  have hlevel : 2 ≤ height n / 2 := (Nat.le_div_iff_mul_le (by decide)).2 hheight
  have hwidth : 4 * width n (height n / 2) ≤ n + 3 := by
    have hmono : width n (height n / 2) ≤ width n 2 := by
      rw [width_le_iff]
      exact (width_le_iff.1 le_rfl).trans
        (Nat.mul_le_mul_left _ (Nat.pow_le_pow_right Nat.two_pos hlevel))
    have hquarter : width n 2 = ((n + 1) / 2 + 1) / 2 := rfl
    omega
  generalize width n (height n / 2) = m at hwidth ⊢
  obtain ⟨d, hd⟩ : ∃ d, height n - height n / 2 = d + 2 :=
    ⟨height n - height n / 2 - 2, by omega⟩
  have hqm : 3 * m ≤ 2 * q := by omega
  rw [hd]
  calc m * (d + 2) + m = m * d + 3 * m := by ring
    _ ≤ q * d + 2 * q := Nat.add_le_add (Nat.mul_le_mul_right d (by omega)) hqm
    _ = q * (d + 2) := by ring

/-- After anchoring at least every second of sixteen or more leaves, with the
    predetermined level half way up, the proofs served have the bytes of the formula, the
    labels are those of this level, and the shards with their labels take no more bytes
    than the proofs. -/
theorem storage_within_baseline (sha256 : Bytes → Hash) (leaves : List Hash)
    (indices : List ℕ) (hn : 16 ≤ leaves.length) (hlt : ∀ i ∈ indices, i < leaves.length)
    (hfits : ∀ i ∈ indices, i < 2 ^ 32) (hq : leaves.length / 2 ≤ indices.length) :
    ∃ store stored assistance,
      anchorAll sha256 leaves (new (ceilLog2 leaves.length / 2)) indices = .ok store ∧
      queryAll leaves store indices = .ok stored ∧
      (∀ p ∈ stored, store.proofAssistanceFor p.expectedRoot = some assistance) ∧
      (stored.map fun p => proofTotalSiblings p * hashBytes).sum =
        indices.length * ceilLog2 leaves.length * hashBytes ∧
      assistance.nodeLabels.length = leaves.length ⌈/⌉ 2 ^ (ceilLog2 leaves.length / 2) ∧
      ∃ noDedup upperDedup minimumViable,
        measureStoreBytes stored (ceilLog2 leaves.length / 2)
          (assistance.nodeLabels.length * hashBytes) = (noDedup, upperDedup, minimumViable) ∧
        noDedup = indices.length * ceilLog2 leaves.length * hashBytes +
          assistance.nodeLabels.length * hashBytes ∧
        minimumViable ≤ upperDedup ∧
        upperDedup ≤ indices.length * ceilLog2 leaves.length * hashBytes := by
  rw [ceilLog2_eq_height]
  have hle : height leaves.length / 2 ≤ height leaves.length := Nat.div_le_self _ 2
  obtain ⟨store, hanchor, hquery, hassistance⟩ :=
    anchorAll_eq sha256 (height leaves.length / 2) hlt hfits
  have hlabels : (assistanceOf sha256 (height leaves.length / 2) leaves).nodeLabels.length =
      width leaves.length (height leaves.length / 2) := by
    rw [assistanceOf, length_level, labelLevel, min_eq_left hle]
  refine ⟨store, _, assistanceOf sha256 (height leaves.length / 2) leaves, hanchor, hquery,
    ?_, sum_proofTotalSiblings .., ?_, _, _, _, measureStoreBytes_eq sha256 _ _ hlt, rfl, ?_, ?_⟩
  · intro p hp
    obtain ⟨i, hi, rfl⟩ := List.mem_map.1 hp
    exact hassistance (List.ne_nil_of_mem hi)
  · rw [hlabels, width_eq_ceilDiv]
  · exact Nat.add_le_add_right (Nat.le_add_right _ _) _
  · rw [hlabels, min_eq_left hle]
    have hcard := card_uppers_le sha256 (height leaves.length / 2) hlt
    have hupper := labels_le_uppers hn hq
    -- The lower halves are counted in full on both sides.
    have hhalves : indices.length * (height leaves.length / 2) +
        indices.length * (height leaves.length - height leaves.length / 2) =
          indices.length * height leaves.length := by
      rw [← Nat.mul_add, Nat.add_sub_cancel' hle]
    rw [← hhalves]
    generalize width leaves.length (height leaves.length / 2) = m at hcard hupper ⊢
    generalize height leaves.length - height leaves.length / 2 = d at hupper ⊢
    calc _ ≤ indices.length * (height leaves.length / 2 * hashBytes) + m * (d * hashBytes) +
          m * hashBytes := by gcongr
      _ = (indices.length * (height leaves.length / 2) + (m * d + m)) * hashBytes := by ring
      _ ≤ (indices.length * (height leaves.length / 2) + indices.length * d) * hashBytes := by
        gcongr

/-- Sixteen different leaves. -/
def sixteenLeaves : List Hash :=
  (List.range 16).map fun i => Vector.replicate 32 (UInt8.ofNat i)

theorem storage_within_baseline_sixteen :
    ∃ store stored assistance,
      anchorAll Sha256.digest sixteenLeaves (new (ceilLog2 16 / 2)) (List.range 8) = .ok store ∧
      queryAll sixteenLeaves store (List.range 8) = .ok stored ∧
      (∀ p ∈ stored, store.proofAssistanceFor p.expectedRoot = some assistance) ∧
      (stored.map fun p => proofTotalSiblings p * hashBytes).sum = 8 * ceilLog2 16 * hashBytes ∧
      assistance.nodeLabels.length = 16 ⌈/⌉ 2 ^ (ceilLog2 16 / 2) ∧
      ∃ noDedup upperDedup minimumViable,
        measureStoreBytes stored (ceilLog2 16 / 2)
          (assistance.nodeLabels.length * hashBytes) = (noDedup, upperDedup, minimumViable) ∧
        noDedup = 8 * ceilLog2 16 * hashBytes + assistance.nodeLabels.length * hashBytes ∧
        minimumViable ≤ upperDedup ∧ upperDedup ≤ 8 * ceilLog2 16 * hashBytes :=
  storage_within_baseline Sha256.digest sixteenLeaves (List.range 8) (by decide) (by decide)
    (by decide) (by decide)

end Vaa.Simstore
