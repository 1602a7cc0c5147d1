import Vaa.Cli.Basic

/-!
# Which records `vaa verify` lets through

Records and nodes are hashed alike, and nothing in a bundle tells the height of the
tree. So against the root of a list of records, `vaa verify` accepts more than these:

* with fewer siblings than the tree is high, the 64 bytes of two nodes, presented as
  the record of their parent (`NodeAsRecord`);
* with more siblings, anything below a record which is itself the 64 bytes of two
  hashes, read as a node (`RecordAsNode`).

Up to a collision among the inputs hashed, these are the only other ones
(`record_or_forged`), and a bundle of an unlisted record is accepted exactly when it
presents one of them (`forgery_iff`).
-/

namespace Vaa.Cli

open PairTree Merkle ProofStore

section Forgery

variable (sha256 : Bytes → Hash) (records : List Bytes) (leaf : Hash) (i : ℕ)
  (siblings : List Hash) (disclosed : Bytes)

/-- The record is made of the two nodes below the node shown at the index, as many
    levels below the root as there are siblings, and these are the opening of it. -/
def NodeAsRecord : Prop :=
  let leaves := leavesOf sha256 records
  let j := i % 2 ^ siblings.length
  ∃ low, low + 1 + siblings.length = height leaves.length ∧
    disclosed = pairInput (children (Merkle.hashPair sha256) (leafAt leaves) leaves.length low
      (origin leaves.length (low + 1) siblings.length j)) ∧
    siblings = opening (Merkle.hashPair sha256) (leafAt leaves) leaves.length (low + 1)
      siblings.length j

/-- The siblings first lead from the leaf to a pair that is one of the records, the one
    shown at the index met there, and then follow the path of this record. -/
def RecordAsNode : Prop :=
  let leaves := leavesOf sha256 records
  ∃ below sibling above, siblings = below ++ sibling :: above ∧
    above.length = height leaves.length ∧
    let j := i / 2 ^ (below.length + 1) % 2 ^ height leaves.length
    records[origin leaves.length 0 (height leaves.length) j]? =
        some (pairInput (midPair (Merkle.hashPair sha256) leaf i below sibling)) ∧
      above = path (Merkle.hashPair sha256) leaves j

/-- The inputs hashed in building the tree over the records, and in verifying the
    disclosed one. -/
def hashedInputs : List Bytes :=
  records ++ treeInputs sha256 (leavesOf sha256 records) ++
    disclosed :: (walkPairs (Merkle.hashPair sha256) leaf i siblings).map pairInput

end Forgery

variable {sha256 : Bytes → Hash} {records : List Bytes} {leaf : Hash} {i : ℕ}
  {siblings : List Hash} {disclosed : Bytes}

/-- A list longer than `m` has an entry with `m` entries after it. -/
theorem exists_split {α : Type} {xs : List α} {m : ℕ} (hm : m < xs.length) :
    ∃ below x above, xs = below ++ x :: above ∧ above.length = m := by
  have hlt : xs.length - m - 1 < xs.length := by omega
  refine ⟨xs.take (xs.length - m - 1), xs[xs.length - m - 1], xs.drop (xs.length - m - 1 + 1),
    ?_, ?_⟩
  · rw [← List.drop_eq_getElem_cons hlt, List.take_append_drop]
  · rw [List.length_drop]
    omega

/-- The record shown at a position of the padded tree. -/
theorem exists_record (sha256 : Bytes → Hash) (hne : records ≠ []) (j : ℕ) :
    ∃ record ∈ records, records[origin (leavesOf sha256 records).length 0
      (height (leavesOf sha256 records).length)
      (j % 2 ^ height (leavesOf sha256 records).length)]? = some record := by
  have hn : 0 < (leavesOf sha256 records).length :=
    List.length_pos_iff.2 (leavesOf_ne_nil hne)
  have hshown : origin (leavesOf sha256 records).length 0
      (height (leavesOf sha256 records).length)
      (j % 2 ^ height (leavesOf sha256 records).length) < (leavesOf sha256 records).length :=
    origin_mod_lt hn ..
  have hlen : (leavesOf sha256 records).length = records.length := List.length_map ..
  exact ⟨_, List.getElem_mem (hlen ▸ hshown), List.getElem?_eq_getElem _⟩

/-! ## The forgeries are accepted -/

/-- Two nodes presented as a record lead to the root. -/
theorem NodeAsRecord.walk_eq (hne : records ≠ [])
    (hforged : NodeAsRecord sha256 records i siblings disclosed) :
    walk (Merkle.hashPair sha256) (Bsv.doubleSha256 sha256 disclosed) i siblings =
      rootOf (Merkle.hashPair sha256) (leavesOf sha256 records) := by
  obtain ⟨low, hlow, hdisclosed, hsiblings⟩ := hforged
  have hwalk := walk_opening_root (Merkle.hashPair sha256) (leavesOf_ne_nil hne) hlow i
  rw [← hsiblings] at hwalk
  rw [hdisclosed, ← hashPair_eq_doubleSha256]
  exact hwalk

/-- What leads to a record read as a node leads to the root. -/
theorem RecordAsNode.walk_eq (hne : records ≠ [])
    (hforged : RecordAsNode sha256 records leaf i siblings) :
    walk (Merkle.hashPair sha256) leaf i siblings =
      rootOf (Merkle.hashPair sha256) (leavesOf sha256 records) := by
  obtain ⟨below, sibling, above, rfl, -, hrecord, habove⟩ := hforged
  have hleaves : leavesOf sha256 records ≠ [] := leavesOf_ne_nil hne
  have hwalk := walk_opening_root (Merkle.hashPair sha256) hleaves (Nat.zero_add _)
    (i / 2 ^ (below.length + 1))
  rw [path] at habove
  rw [Merkle.node, ← habove, PairTree.node_zero, leafAt_leavesOf hrecord] at hwalk
  rw [walk_append_cons, hashPair_eq_doubleSha256]
  exact hwalk

/-! ## There are no others -/

section Others

variable {as bs : List Bytes} {a b : Bytes}

/-- Two inputs with one hash are equal, or they collide. -/
theorem eq_or_collides (ha : a ∈ as) (hb : b ∈ bs)
    (hab : Bsv.doubleSha256 sha256 a = Bsv.doubleSha256 sha256 b) :
    a = b ∨ Bsv.Collides sha256 as bs := by
  by_cases hne : a = b
  · exact .inl hne
  · exact .inr ⟨a, ha, b, hb, hne, hab⟩

theorem disclosed_mem_hashedInputs :
    disclosed ∈ hashedInputs sha256 records leaf i siblings disclosed := by
  simp [hashedInputs]

theorem record_mem_hashedInputs {record : Bytes} (hrecord : record ∈ records) :
    record ∈ hashedInputs sha256 records leaf i siblings disclosed := by
  simp [hashedInputs, hrecord]

theorem treeInputs_subset_hashedInputs :
    treeInputs sha256 (leavesOf sha256 records) ⊆
      hashedInputs sha256 records leaf i siblings disclosed := by
  intro input hinput
  simp [hashedInputs, hinput]

theorem walkInputs_subset_hashedInputs :
    (walkPairs (Merkle.hashPair sha256) leaf i siblings).map pairInput ⊆
      hashedInputs sha256 records leaf i siblings disclosed := by
  intro input hinput
  rw [hashedInputs]
  exact List.mem_append_right _ (List.mem_cons_of_mem _ hinput)

/-- A collision between the walk and the tree is one among the inputs hashed. -/
theorem collides_of_walk {pairs : List (Hash × Hash)}
    (hpairs : pairs ⊆ walkPairs (Merkle.hashPair sha256) leaf i siblings)
    (hc : Collision (Merkle.hashPair sha256) pairs
      (rootPairs (Merkle.hashPair sha256) (leavesOf sha256 records))) :
    Bsv.Collides sha256 (hashedInputs sha256 records leaf i siblings disclosed)
      (hashedInputs sha256 records leaf i siblings disclosed) := by
  obtain ⟨a, ha, b, hb, hab⟩ := collides_of_collision hc
  exact ⟨a, walkInputs_subset_hashedInputs (List.map_subset _ hpairs ha), b,
    treeInputs_subset_hashedInputs hb, hab⟩

end Others

section Lengths

variable (hne : records ≠ []) (hleaf : Bsv.doubleSha256 sha256 disclosed = leaf)
  (hwalk : walk (Merkle.hashPair sha256) leaf i siblings =
    rootOf (Merkle.hashPair sha256) (leavesOf sha256 records))

include hne hleaf hwalk

/-- With too few siblings, the leaf is an inner node, and the record its two children. -/
theorem nodeAsRecord_of_length_lt
    (hshort : siblings.length < height (leavesOf sha256 records).length) :
    NodeAsRecord sha256 records i siblings disclosed ∨
      Bsv.Collides sha256 (hashedInputs sha256 records leaf i siblings disclosed)
        (hashedInputs sha256 records leaf i siblings disclosed) := by
  have hleaves : leavesOf sha256 records ≠ [] := leavesOf_ne_nil hne
  obtain ⟨low, hlow⟩ : ∃ low,
      low + 1 + siblings.length = height (leavesOf sha256 records).length :=
    ⟨height (leavesOf sha256 records).length - siblings.length - 1, by omega⟩
  rcases walk_eq_root_of_add hleaves hlow hwalk with ⟨hnode, hsiblings⟩ | hc
  · have hq : origin (leavesOf sha256 records).length (low + 1) siblings.length
        (i % 2 ^ siblings.length) < width (leavesOf sha256 records).length (low + 1) :=
      origin_mod_lt (List.length_pos_iff.2 hleaves) ..
    have hchildren : pairInput (children (Merkle.hashPair sha256)
        (leafAt (leavesOf sha256 records)) (leavesOf sha256 records).length low
        (origin (leavesOf sha256 records).length (low + 1) siblings.length
          (i % 2 ^ siblings.length))) ∈ treeInputs sha256 (leavesOf sha256 records) := by
      rw [treeInputs, rootPairs_eq _ hleaves]
      exact List.mem_map_of_mem (children_mem_treePairs (by omega) hq)
    rw [← hleaf, Merkle.node, PairTree.node_succ, hashPair_eq_doubleSha256] at hnode
    rcases eq_or_collides disclosed_mem_hashedInputs (treeInputs_subset_hashedInputs hchildren)
      hnode with hdisclosed | hc
    · exact .inl ⟨low, hlow, hdisclosed, hsiblings⟩
    · exact .inr hc
  · exact .inr (collides_of_walk (List.Subset.refl _) hc)

/-- With as many siblings as levels, the record is one of the list. -/
theorem mem_records_of_length_eq
    (hlen : siblings.length = height (leavesOf sha256 records).length) :
    disclosed ∈ records ∨
      Bsv.Collides sha256 (hashedInputs sha256 records leaf i siblings disclosed)
        (hashedInputs sha256 records leaf i siblings disclosed) := by
  rcases walk_eq_root (leavesOf_ne_nil hne) hlen hwalk with ⟨hx, -⟩ | hc
  · obtain ⟨record, hmem, hrecord⟩ := exists_record sha256 hne i
    rw [← hleaf, leafAt_leavesOf hrecord] at hx
    rcases eq_or_collides disclosed_mem_hashedInputs (record_mem_hashedInputs hmem) hx with
      rfl | hc
    · exact .inl hmem
    · exact .inr hc
  · exact .inr (collides_of_walk (List.Subset.refl _) hc)

omit hleaf in
/-- With too many siblings, a record is met on the way as a node. -/
theorem recordAsNode_of_lt_length
    (hlong : height (leavesOf sha256 records).length < siblings.length) :
    RecordAsNode sha256 records leaf i siblings ∨
      Bsv.Collides sha256 (hashedInputs sha256 records leaf i siblings disclosed)
        (hashedInputs sha256 records leaf i siblings disclosed) := by
  obtain ⟨below, sibling, above, rfl, hlen⟩ := exists_split hlong
  have hpairs := walkPairs_append_cons (Merkle.hashPair sha256) leaf i below sibling above
  rw [walk_append_cons] at hwalk
  rcases walk_eq_root (leavesOf_ne_nil hne) hlen hwalk with ⟨hx, habove⟩ | hc
  · obtain ⟨record, hmem, hrecord⟩ :=
      exists_record sha256 hne (i / 2 ^ (below.length + 1))
    have hmid : pairInput (midPair (Merkle.hashPair sha256) leaf i below sibling) ∈
        hashedInputs sha256 records leaf i (below ++ sibling :: above) disclosed := by
      refine walkInputs_subset_hashedInputs (List.mem_map_of_mem ?_)
      rw [hpairs]
      exact List.mem_append_right _ List.mem_cons_self
    rw [hashPair_eq_doubleSha256, leafAt_leavesOf hrecord] at hx
    rcases eq_or_collides hmid (record_mem_hashedInputs hmem) hx with heq | hc
    · refine .inl ⟨below, sibling, above, rfl, hlen, ?_, habove⟩
      rw [hrecord, heq]
    · exact .inr hc
  · refine .inr (collides_of_walk ?_ hc)
    rw [hpairs]
    exact List.Subset.trans (List.subset_cons_self _ _) (List.subset_append_right _ _)

/-- A record leading to the root is one of the list or a forgery, or there is a
    collision among the inputs hashed. -/
theorem record_or_forged :
    (disclosed ∈ records ∨ NodeAsRecord sha256 records i siblings disclosed ∨
      RecordAsNode sha256 records leaf i siblings) ∨
      Bsv.Collides sha256 (hashedInputs sha256 records leaf i siblings disclosed)
        (hashedInputs sha256 records leaf i siblings disclosed) := by
  rcases lt_trichotomy siblings.length (height (leavesOf sha256 records).length) with
    hshort | hlen | hlong
  · exact (nodeAsRecord_of_length_lt hne hleaf hwalk hshort).imp_left fun h => .inr (.inl h)
  · exact (mem_records_of_length_eq hne hleaf hwalk hlen).imp_left .inl
  · exact (recordAsNode_of_lt_length hne hwalk hlong).imp_left fun h => .inr (.inr h)

end Lengths

/-! ## Forged bundles -/

/-- A bundle of an unlisted record, well formed up to what it proves, that presents a
    forgery. -/
structure Forged (sha256 : Bytes → Hash) (records : List Bytes) (bundle : ProofBundle)
    (leaf : Hash) (siblings : List Hash) (disclosed : Bytes) : Prop where
  version_eq : bundle.version = 2
  index_lt : bundle.leafIndex < 2 ^ 32
  leaf_eq : Bsv.doubleSha256 sha256 disclosed = leaf
  unlisted : disclosed ∉ records
  forgery : NodeAsRecord sha256 records bundle.leafIndex siblings disclosed ∨
    RecordAsNode sha256 records leaf bundle.leafIndex siblings

/-- Against the root of a list of records, `vaa verify` accepts the record of a bundle
    only from the list exactly when the bundle is not forged. -/
theorem forgery_iff (sha256 : Bytes → Hash) (hexDecode : String → Except String Bytes)
    (tryFromIntError : String) (readToString : String → Except String String)
    (bundleFromStr : String → Except String ProofBundle) (bundlePath raw : String)
    (bundle : ProofBundle) (records : List Bytes) (r : Hash)
    (hread : readToString bundlePath = .ok raw) (hparse : bundleFromStr raw = .ok bundle)
    (hne : records ≠ [])
    (hroot : merkleRoot (Merkle.hashPair sha256) (leavesOf sha256 records) = .ok r)
    (hdecode : displayToInternal hexDecode bundle.rootDisplayBe = .ok r) :
    (∀ lines, cmdVerify sha256 hexDecode tryFromIntError readToString bundleFromStr bundlePath =
        .ok lines →
      ∃ leaf siblings disclosed, Decodes hexDecode bundle leaf r siblings disclosed ∧
        (disclosed ∈ records ∨ Bsv.Collides sha256
          (hashedInputs sha256 records leaf bundle.leafIndex siblings disclosed)
          (hashedInputs sha256 records leaf bundle.leafIndex siblings disclosed))) ↔
    ∀ leaf siblings disclosed, Decodes hexDecode bundle leaf r siblings disclosed →
      ¬Forged sha256 records bundle leaf siblings disclosed ∨ Bsv.Collides sha256
        (hashedInputs sha256 records leaf bundle.leafIndex siblings disclosed)
        (hashedInputs sha256 records leaf bundle.leafIndex siblings disclosed) := by
  obtain ⟨_, rfl⟩ := merkleRoot_eq_ok_iff.1 hroot
  rw [cmdVerify_eq hread hparse]
  constructor
  · intro haccepted leaf siblings disclosed hdecodes
    rw [or_iff_not_imp_left, not_not]
    intro hforged
    -- The forgery is accepted, so its record must be in the list.
    have hwalk : walk (Merkle.hashPair sha256) leaf bundle.leafIndex siblings =
        rootOf (Merkle.hashPair sha256) (leavesOf sha256 records) := by
      rcases hforged.forgery with hnode | hrecord
      · rw [← hforged.leaf_eq]
        exact hnode.walk_eq hne
      · exact hrecord.walk_eq hne
    obtain ⟨lines, hok⟩ := verifyBundle_ok_iff.2 ⟨hforged.version_eq, hforged.index_lt, leaf, _,
      siblings, disclosed, hdecodes, hforged.leaf_eq, hwalk⟩
    obtain ⟨leaf', siblings', disclosed', hdecodes', hlisted⟩ := haccepted lines hok
    obtain ⟨rfl, rfl, rfl⟩ := hdecodes.unique hdecodes'
    exact hlisted.resolve_left hforged.unlisted
  · intro hhonest lines hok
    obtain ⟨hversion, hindex, leaf, root, siblings, disclosed, hdecodes, hleaf, hwalk⟩ :=
      verifyBundle_ok_iff.1 ⟨lines, hok⟩
    obtain rfl := Except.ok.inj (hdecodes.root_eq.symm.trans hdecode)
    refine ⟨leaf, siblings, disclosed, hdecodes, ?_⟩
    rcases record_or_forged hne hleaf hwalk with (hlisted | hforgery) | hc
    · exact .inl hlisted
    · by_cases hlisted : disclosed ∈ records
      · exact .inl hlisted
      · exact .inr ((hhonest leaf siblings disclosed hdecodes).resolve_left fun hforged =>
          hforged ⟨hversion, hindex, hleaf, hlisted, hforgery⟩)
    · exact .inr hc

/-! ## Two records -/

/-- Two records of one byte. -/
def twoRecords : List Bytes := [[0x61], [0x62]]

/-- The root over the two records. -/
def rootOfTwo : Hash :=
  #v[0xb7, 0x67, 0xa3, 0xa1, 0x2f, 0x5f, 0x8b, 0xb1, 0x94, 0x9d, 0x16, 0x3c, 0x51, 0xf9, 0xa4, 0x2e,
     0x6b, 0xda, 0x8d, 0xcd, 0x02, 0xd5, 0x03, 0x53, 0x71, 0x7f, 0x73, 0xd4, 0x33, 0x8b, 0x1b, 0xf0]

/-- The leaves of the two records, one after the other. -/
def leavesOfTwo : Bytes :=
  [0xbf, 0x5d, 0x3a, 0xff, 0xb7, 0x3e, 0xfd, 0x2e, 0xc6, 0xc3, 0x6a, 0xd3, 0x11, 0x2d, 0xd9, 0x33,
   0xef, 0xed, 0x63, 0xc4, 0xe1, 0xcb, 0xff, 0xcf, 0xa8, 0x8e, 0x27, 0x59, 0xc1, 0x44, 0xf2, 0xd8,
   0x39, 0x36, 0x11, 0x60, 0x90, 0x3c, 0x66, 0x95, 0xc6, 0x80, 0x4b, 0x71, 0x57, 0xc7, 0xbd, 0x10,
   0x01, 0x3e, 0x9b, 0xa8, 0x9b, 0x1f, 0x95, 0x42, 0x43, 0xbc, 0x8e, 0x39, 0x90, 0xb0, 0x8d, 0xb9]

/-- The bundle of the root over the two records as a leaf, its record being the two
    leaves. -/
def forgedBundle : ProofBundle where
  version := 2
  rootDisplayBe := "f01b8b33d4737f715303d502cd8dda6b2ea4f9513c169d94b18b5f2fa1a367b7"
  leafDisplayBe := "f01b8b33d4737f715303d502cd8dda6b2ea4f9513c169d94b18b5f2fa1a367b7"
  siblingsDisplayBe := []
  leafIndex := 0
  disclosedRecordHex :=
    "bf5d3affb73efd2ec6c36ad3112dd933efed63c4e1cbffcfa88e2759c144f2d8" ++
      "39361160903c6695c6804b7157c7bd10013e9ba89b1f954243bc8e3990b08db9"

/-- The file of the bundle. -/
def forgedFile : String :=
  "\x7b\"version\":2," ++
    "\"root_display_be\":\"f01b8b33d4737f715303d502cd8dda6b2ea4f9513c169d94b18b5f2fa1a367b7\"," ++
    "\"leaf_display_be\":\"f01b8b33d4737f715303d502cd8dda6b2ea4f9513c169d94b18b5f2fa1a367b7\"," ++
    "\"siblings_display_be\":[],\"leaf_index\":0,\"disclosed_record_hex\":" ++
    "\"bf5d3affb73efd2ec6c36ad3112dd933efed63c4e1cbffcfa88e2759c144f2d8" ++
    "39361160903c6695c6804b7157c7bd10013e9ba89b1f954243bc8e3990b08db9\"\x7d"

/-- A file system with this file only. -/
def readForged (path : String) : Except String String :=
  if path = "bundle.json" then .ok forgedFile else .error "No such file or directory (os error 2)"

/-- The parser of bundles, on this file. -/
def parseForged (text : String) : Except String ProofBundle :=
  if text = forgedFile then .ok forgedBundle else .error "expected value at line 1 column 1"

/-- Below the bytes of two leaves, listed as a record, either leaf is presented as one. -/
example : RecordAsNode Sha256.digest [leavesOfTwo] (Bsv.doubleSha256 Sha256.digest [0x61]) 0
    [Bsv.doubleSha256 Sha256.digest [0x62]] :=
  ⟨[], _, [], rfl, by decide +kernel, by decide +kernel, rfl⟩

theorem merkleRoot_two : merkleRoot (Merkle.hashPair Sha256.digest)
    (leavesOf Sha256.digest twoRecords) = .ok rootOfTwo := by
  decide +kernel

/-- The two leaves hash to the root, as a record does to its leaf. -/
theorem doubleSha256_leavesOfTwo : Bsv.doubleSha256 Sha256.digest leavesOfTwo = rootOfTwo := by
  decide +kernel

theorem decodes_forged :
    Decodes Hex.decode forgedBundle rootOfTwo rootOfTwo [] leavesOfTwo where
  leaf_eq := by decide +kernel
  root_eq := by decide +kernel
  siblings_eq := rfl
  disclosed_eq := by decide +kernel

theorem forgery_iff_two :
    (∀ lines, cmdVerify Sha256.digest Hex.decode outOfRange readForged parseForged "bundle.json" =
        .ok lines →
      ∃ leaf siblings disclosed, Decodes Hex.decode forgedBundle leaf rootOfTwo siblings
          disclosed ∧
        (disclosed ∈ twoRecords ∨ Bsv.Collides Sha256.digest
          (hashedInputs Sha256.digest twoRecords leaf 0 siblings disclosed)
          (hashedInputs Sha256.digest twoRecords leaf 0 siblings disclosed))) ↔
    ∀ leaf siblings disclosed,
      Decodes Hex.decode forgedBundle leaf rootOfTwo siblings disclosed →
      ¬Forged Sha256.digest twoRecords forgedBundle leaf siblings disclosed ∨
        Bsv.Collides Sha256.digest
          (hashedInputs Sha256.digest twoRecords leaf 0 siblings disclosed)
          (hashedInputs Sha256.digest twoRecords leaf 0 siblings disclosed) :=
  forgery_iff Sha256.digest Hex.decode outOfRange readForged parseForged "bundle.json" forgedFile
    forgedBundle twoRecords rootOfTwo (if_pos rfl) (if_pos rfl) (by decide) merkleRoot_two
    decodes_forged.root_eq

/-- Over two records, `vaa verify` accepts the bundle of the two leaves as a record. -/
theorem nodes_accepted_as_record :
    ¬∀ (readToString : String → Except String String)
      (bundleFromStr : String → Except String ProofBundle) (bundlePath raw : String)
      (bundle : ProofBundle) (records : List Bytes) (r : Hash),
      readToString bundlePath = .ok raw → bundleFromStr raw = .ok bundle → records ≠ [] →
      merkleRoot (Merkle.hashPair Sha256.digest) (leavesOf Sha256.digest records) = .ok r →
      displayToInternal Hex.decode bundle.rootDisplayBe = .ok r →
      ∀ lines,
        cmdVerify Sha256.digest Hex.decode outOfRange readToString bundleFromStr bundlePath =
          .ok lines →
        ∃ leaf siblings disclosed, Decodes Hex.decode bundle leaf r siblings disclosed ∧
          (disclosed ∈ records ∨ Bsv.Collides Sha256.digest
            (hashedInputs Sha256.digest records leaf bundle.leafIndex siblings disclosed)
            (hashedInputs Sha256.digest records leaf bundle.leafIndex siblings disclosed)) := by
  intro hall
  have hread : readForged "bundle.json" = .ok forgedFile := if_pos rfl
  have hparse : parseForged forgedFile = .ok forgedBundle := if_pos rfl
  obtain ⟨lines, hok⟩ := verifyBundle_ok_iff.2 ⟨rfl, by decide, rootOfTwo, rootOfTwo, [],
    leavesOfTwo, decodes_forged, doubleSha256_leavesOfTwo, rfl⟩
  rw [← cmdVerify_eq hread hparse] at hok
  obtain ⟨leaf, siblings, disclosed, hdecodes, hlisted⟩ := hall readForged parseForged
    "bundle.json" forgedFile forgedBundle twoRecords rootOfTwo hread hparse (by decide)
    merkleRoot_two decodes_forged.root_eq _ hok
  obtain ⟨rfl, rfl, rfl⟩ := decodes_forged.unique hdecodes
  revert hlisted
  decide +kernel

end Vaa.Cli
