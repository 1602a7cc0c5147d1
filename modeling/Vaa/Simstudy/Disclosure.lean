import Vaa.Simstudy.Coincidence

/-!
# What the root of a population binds

The ids of a population are the positions of its records. So its root binds the number
of its records and every field of each, once the height of the tree is known
(`population_bound`); and a record disclosed with a proof of that height is the one
anchored at its position, so that an auditor to whom all of them are disclosed recomputes
the equations over the population anchored (`disclosed_population`). Both hold up to a
collision between two byte strings hashed on the way.
-/

namespace Vaa.Simstudy

open PairTree Merkle ProofStore

/-! ## Populations under a root -/

/-- The byte strings hashed in anchoring a population: those of the records, and of the
    tree over them. -/
def anchoredInputs (sha256 : Bytes → Hash) (toVec : AccountingRecord → Bytes)
    (records : List AccountingRecord) : List Bytes :=
  records.map toVec ++ treeInputs sha256 (leavesOfRecords sha256 toVec records)

section Bound

variable {sha256 : Bytes → Hash} {toVec : AccountingRecord → Bytes}
  {p q : List AccountingRecord}

@[simp] theorem length_leavesOfRecords (sha256 : Bytes → Hash)
    (toVec : AccountingRecord → Bytes) (records : List AccountingRecord) :
    (leavesOfRecords sha256 toVec records).length = records.length := List.length_map _

theorem leavesOfRecords_ne_nil (hp : p ≠ []) : leavesOfRecords sha256 toVec p ≠ [] := by
  simpa [leavesOfRecords] using hp

/-- A position below the root shows a leaf. -/
theorem origin_lt_of_lt {n h j : ℕ} (hn : 0 < n) (hj : j < 2 ^ h) : origin n 0 h j < n := by
  rw [← Nat.mod_eq_of_lt hj]
  exact origin_mod_lt hn 0 h j

/-- A tree is no wider than one that shows the same leaves. -/
theorem le_of_origin_eq {m n h : ℕ} (hm : 0 < m) (hn : n ≤ 2 ^ h)
    (hshown : ∀ j < 2 ^ h, origin m 0 h j = origin n 0 h j) : n ≤ m := by
  by_contra hlt
  rw [not_le] at hlt
  have hj : m < 2 ^ h := hlt.trans_le hn
  have hbelow := origin_lt_of_lt hm hj
  rw [hshown m hj, origin_of_lt (by simpa using hlt)] at hbelow
  exact absurd hbelow (lt_irrefl m)

/-- Populations with one expansion show the same records below the root, or two of their
    records collide. -/
theorem shown_eq_of_expansion_eq (htoVec : Function.Injective toVec) (hp : p ≠ []) (hq : q ≠ [])
    (hheight : height p.length = height q.length)
    (hexp : expansion (leavesOfRecords sha256 toVec p) =
      expansion (leavesOfRecords sha256 toVec q)) :
    (∀ j < 2 ^ height p.length, p[origin p.length 0 (height p.length) j]? =
      q[origin q.length 0 (height p.length) j]?) ∨
      Bsv.Collides sha256 (p.map toVec) (q.map toVec) := by
  by_cases hc : Bsv.Collides sha256 (p.map toVec) (q.map toVec)
  · exact .inr hc
  · refine .inl fun j hj => ?_
    have hi := origin_lt_of_lt (List.length_pos_iff.2 hp) hj
    have hi' := origin_lt_of_lt (List.length_pos_iff.2 hq) hj
    have hleaves : leavesOfRecords sha256 toVec p ≠ [] := leavesOfRecords_ne_nil hp
    have hleaf := getElem?_expansion hleaves (j := j) (by rwa [length_leavesOfRecords])
    rw [hexp, getElem?_expansion (leavesOfRecords_ne_nil hq)
      (by rwa [length_leavesOfRecords, ← hheight]), length_leavesOfRecords,
      length_leavesOfRecords, ← hheight, leafAt_leavesOfRecords hi, leafAt_leavesOfRecords hi',
      Option.some.injEq] at hleaf
    rw [List.getElem?_eq_getElem hi, List.getElem?_eq_getElem hi', Option.some.injEq]
    by_contra hdiffer
    exact hc ⟨_, List.mem_map_of_mem (List.getElem_mem hi), _,
      List.mem_map_of_mem (List.getElem_mem hi'), fun heq => hdiffer (htoVec heq), hleaf.symm⟩

/-- Numbered populations that show the same records below the root are equal. -/
theorem eq_of_shown_eq (hp : p ≠ []) (hq : q ≠ []) (hnumbered : Numbered p)
    (hnumbered' : Numbered q) (hheight : height p.length = height q.length)
    (hshown : ∀ j < 2 ^ height p.length, p[origin p.length 0 (height p.length) j]? =
      q[origin q.length 0 (height p.length) j]?) : p = q := by
  have hpos : 0 < p.length := List.length_pos_iff.2 hp
  -- The ids of the records shown are equal, and they are the positions of the records.
  have horigin : ∀ j < 2 ^ height p.length, origin p.length 0 (height p.length) j =
      origin q.length 0 (height p.length) j := by
    intro j hj
    have hrecord := List.getElem?_eq_getElem (origin_lt_of_lt hpos hj)
    rw [← hnumbered hrecord]
    rw [hshown j hj] at hrecord
    exact hnumbered' hrecord
  have hle : q.length ≤ p.length :=
    le_of_origin_eq hpos (hheight ▸ Nat.le_pow_clog Nat.one_lt_two _) horigin
  have hle' : p.length ≤ q.length :=
    le_of_origin_eq (List.length_pos_iff.2 hq) (Nat.le_pow_clog Nat.one_lt_two _)
      fun j hj => (horigin j hj).symm
  ext1 i
  by_cases hi : i < p.length
  · have hrecord := hshown i (lt_two_pow_height hi)
    rwa [origin_of_lt (by simpa using hi), origin_of_lt (by simpa using hi.trans_le hle')]
      at hrecord
  · rw [List.getElem?_eq_none (not_lt.1 hi), List.getElem?_eq_none (hle.trans (not_lt.1 hi))]

/-- A root binds a numbered population, its number of records and every field of each,
    up to a collision. -/
theorem population_bound (sha256 : Bytes → Hash) (toVec : AccountingRecord → Bytes)
    (p q : List AccountingRecord) (htoVec : Function.Injective toVec) (hp : p ≠ [])
    (hq : q ≠ []) (hnumbered : Numbered p) (hnumbered' : Numbered q)
    (hheight : height p.length = height q.length)
    (hroot : merkleRoot (Merkle.hashPair sha256) (leavesOfRecords sha256 toVec p) =
      merkleRoot (Merkle.hashPair sha256) (leavesOfRecords sha256 toVec q)) :
    p = q ∨ Bsv.Collides sha256 (anchoredInputs sha256 toVec p)
      (anchoredInputs sha256 toVec q) := by
  have hleaves : leavesOfRecords sha256 toVec p ≠ [] := leavesOfRecords_ne_nil hp
  have hleaves' : leavesOfRecords sha256 toVec q ≠ [] := leavesOfRecords_ne_nil hq
  rw [merkleRoot_eq _ hleaves, merkleRoot_eq _ hleaves', Except.ok.injEq] at hroot
  rcases expansion_eq_of_rootOf_eq hleaves hleaves' (by simpa using hheight) hroot with hexp | hc
  · rcases shown_eq_of_expansion_eq htoVec hp hq hheight hexp with hshown | hc
    · exact .inl (eq_of_shown_eq hp hq hnumbered hnumbered' hheight hshown)
    · exact .inr (hc.mono (List.subset_append_left _ _) (List.subset_append_left _ _))
  · exact .inr ((collides_of_collision hc).mono (List.subset_append_right _ _)
      (List.subset_append_right _ _))

theorem numbered_falseLegs (claimedInvoice : UInt64) : Numbered (falseLegs claimedInvoice) := by
  intro i r hr
  match i with
  | 0 => exact Option.some.inj hr ▸ rfl
  | 1 => exact Option.some.inj hr ▸ rfl
  | i + 2 => cases hr

theorem population_bound_two :
    falseLegs 150000 = falseLegs 150000 ∨ Bsv.Collides Sha256.digest
      (anchoredInputs Sha256.digest AccountingRecord.canonicalBytes (falseLegs 150000))
      (anchoredInputs Sha256.digest AccountingRecord.canonicalBytes (falseLegs 150000)) :=
  population_bound Sha256.digest AccountingRecord.canonicalBytes _ _ canonicalBytes_injective
    (by decide) (by decide) (numbered_falseLegs _) (numbered_falseLegs _) rfl rfl

/-! ## Disclosed records -/

/-- The byte strings hashed in verifying disclosed records. -/
def disclosedInputs (sha256 : Bytes → Hash) (toVec : AccountingRecord → Bytes)
    (disclosed : List (AccountingRecord × MerkleProof)) : List Bytes :=
  disclosed.flatMap fun (r, proof) => toVec r ::
    (proof.pairs (Merkle.hashPair sha256) (r.leaf sha256 toVec)).map pairInput

/-- A disclosed record, with a proof of the height of the tree that verifies against its
    root, is the record anchored at the index of the proof, up to a collision. -/
theorem record_bound {r : AccountingRecord} {proof : MerkleProof} {root : Hash}
    (htoVec : Function.Injective toVec)
    (hroot : merkleRoot (Merkle.hashPair sha256) (leavesOfRecords sha256 toVec p) = .ok root)
    (hi : proof.leafIndex < p.length) (hlen : proof.siblings.length = height p.length)
    (hok : proof.verify (Merkle.hashPair sha256) (r.leaf sha256 toVec) root = .ok ()) :
    p[proof.leafIndex]? = some r ∨ Bsv.Collides sha256 (disclosedInputs sha256 toVec [(r, proof)])
      (anchoredInputs sha256 toVec p) := by
  have hi' : proof.leafIndex < (leavesOfRecords sha256 toVec p).length := by simpa using hi
  rcases verify_binds (Merkle.hashPair sha256) _ proof _ _ root hi' hroot (merkleProof_eq _ hi')
    (by simpa using hlen) hok with ⟨hleaf, -⟩ | hc
  · rw [← leafAt_eq_getElem hi', leafAt_leavesOfRecords hi] at hleaf
    by_cases heq : p[proof.leafIndex] = r
    · exact .inl (List.getElem?_eq_some_iff.2 ⟨hi, heq⟩)
    · -- Two records with one leaf.
      refine .inr ⟨toVec r, ?_, toVec p[proof.leafIndex], ?_, fun hbytes => heq ?_, hleaf⟩
      · exact List.mem_flatMap.2 ⟨_, List.mem_singleton_self _, List.mem_cons_self⟩
      · exact List.mem_append_left _ (List.mem_map_of_mem (List.getElem_mem hi))
      · exact (htoVec hbytes).symm
  · refine .inr ((collides_of_collision hc).mono ?_ (List.subset_append_right _ _))
    intro input hinput
    exact List.mem_flatMap.2 ⟨_, List.mem_singleton_self _, List.mem_cons_of_mem _ hinput⟩

/-- `n` records are disclosed in their order, each with a proof of the height of the tree
    that verifies against the root. -/
structure Disclosed (sha256 : Bytes → Hash) (toVec : AccountingRecord → Bytes) (n : ℕ)
    (root : Hash) (disclosed : List (AccountingRecord × MerkleProof)) : Prop where
  length_eq : disclosed.length = n
  proofs : ∀ (i : ℕ) (r : AccountingRecord) (proof : MerkleProof),
    disclosed[i]? = some (r, proof) → proof.leafIndex = i ∧ proof.siblings.length = height n ∧
      proof.verify (Merkle.hashPair sha256) (r.leaf sha256 toVec) root = .ok ()

/-- The records of a population, each with its proof. -/
def disclosureOf (sha256 : Bytes → Hash) (toVec : AccountingRecord → Bytes)
    (p : List AccountingRecord) : List (AccountingRecord × MerkleProof) :=
  p.zipIdx.map fun (r, i) => (r,
    { leafIndex := i
      siblings := path (Merkle.hashPair sha256) (leavesOfRecords sha256 toVec p) i })

theorem disclosed_disclosureOf (p : List AccountingRecord) :
    Disclosed sha256 toVec p.length
      (rootOf (Merkle.hashPair sha256) (leavesOfRecords sha256 toVec p))
      (disclosureOf sha256 toVec p) where
  length_eq := by rw [disclosureOf, List.length_map, List.length_zipIdx]
  proofs := by
    intro i r proof hi
    rw [disclosureOf, List.getElem?_map, Option.map_eq_some_iff] at hi
    obtain ⟨⟨r', j⟩, hr, heq⟩ := hi
    obtain ⟨rfl, rfl⟩ := Prod.mk.inj heq
    obtain ⟨hlt, hr⟩ := List.getElem?_eq_some_iff.1 hr
    rw [List.length_zipIdx] at hlt
    rw [List.getElem_zipIdx, Nat.zero_add] at hr
    obtain ⟨rfl, rfl⟩ := Prod.mk.inj hr
    have hi : i < (leavesOfRecords sha256 toVec p).length := by simpa using hlt
    have hwalk := walk_path (Merkle.hashPair sha256) hi
    rw [leafAt_leavesOfRecords hlt] at hwalk
    exact ⟨rfl, by simp, Merkle.verify_eq_ok_iff.2 hwalk⟩

/-- The whole of a population can be disclosed, and what is disclosed against its root is
    the population, up to a collision. -/
theorem disclosed_population (sha256 : Bytes → Hash) (toVec : AccountingRecord → Bytes)
    (p : List AccountingRecord) (root : Hash) (htoVec : Function.Injective toVec)
    (hroot : merkleRoot (Merkle.hashPair sha256) (leavesOfRecords sha256 toVec p) = .ok root) :
    (∃ disclosed, Disclosed sha256 toVec p.length root disclosed ∧
      disclosed.map Prod.fst = p) ∧
    ∀ disclosed, Disclosed sha256 toVec p.length root disclosed →
      disclosed.map Prod.fst = p ∨ Bsv.Collides sha256 (disclosedInputs sha256 toVec disclosed)
        (anchoredInputs sha256 toVec p) := by
  constructor
  · obtain ⟨-, rfl⟩ := merkleRoot_eq_ok_iff.1 hroot
    refine ⟨_, disclosed_disclosureOf p, ?_⟩
    rw [disclosureOf, List.map_map]
    exact List.zipIdx_map_fst 0 p
  · intro disclosed hdisclosed
    by_cases hc : Bsv.Collides sha256 (disclosedInputs sha256 toVec disclosed)
        (anchoredInputs sha256 toVec p)
    · exact .inr hc
    · left
      ext1 i
      rw [List.getElem?_map]
      cases hi : disclosed[i]? with
      | none =>
        rw [List.getElem?_eq_none_iff, hdisclosed.length_eq] at hi
        rw [List.getElem?_eq_none hi]
        rfl
      | some entry =>
        obtain ⟨r, proof⟩ := entry
        obtain ⟨hindex, hsiblings, hok⟩ := hdisclosed.proofs i r proof hi
        have hlt : proof.leafIndex < p.length := by
          rw [hindex, ← hdisclosed.length_eq]
          exact (List.getElem?_eq_some_iff.1 hi).1
        rcases record_bound htoVec hroot hlt hsiblings hok with hrecord | hc'
        · rw [← hindex, hrecord]
          rfl
        · refine absurd (hc'.mono ?_ (List.Subset.refl _)) hc
          intro input hinput
          obtain ⟨entry, hentry, hinput⟩ := List.mem_flatMap.1 hinput
          obtain rfl := List.mem_singleton.1 hentry
          exact List.mem_flatMap.2 ⟨_, List.mem_of_getElem? hi, hinput⟩

theorem disclosed_population_two :
    ∃ disclosed, Disclosed Sha256.digest AccountingRecord.canonicalBytes 2
        (rootOf (Merkle.hashPair Sha256.digest)
          (leavesOfRecords Sha256.digest AccountingRecord.canonicalBytes (falseLegs 150000)))
        disclosed ∧
      disclosed.map Prod.fst = falseLegs 150000 :=
  (disclosed_population Sha256.digest AccountingRecord.canonicalBytes (falseLegs 150000) _
    canonicalBytes_injective (merkleRoot_eq _ (leavesOfRecords_ne_nil (by decide)))).1

end Bound

end Vaa.Simstudy
