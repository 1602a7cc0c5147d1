import Vaa.Cli.Basic
import Vaa.ProofStore.Agreement

/-!
# Proof bundles

`vaa prove` loads a list of records, hashes them to the leaves of a tree, and writes
a bundle proving one of them (`cmdProve`). Hashes are written in display order, their
bytes reversed.

* `prove_verify`: `vaa verify` accepts the bundle of every record whose index fits 32
  bits;
* `selective_disclosure`: the bundle, and the proof stored for the record, depend on
  the other records through the siblings only, the root included.
-/

namespace Vaa.Cli

open PairTree Merkle ProofStore

/-- `RecordsFile`: a list of records as written in its file. -/
structure RecordsFile where
  recordsHex : List String
  deriving DecidableEq, Repr

/-- `internal_to_display`. -/
def internalToDisplay (hexEncode : Bytes → String) (h : Hash) : String :=
  let b := h.toList.reverse
  hexEncode b

section Load

variable (sha256 : Bytes → Hash) (hexDecode : String → Except String Bytes)

/-- One turn of the loop of `load_records`. -/
def pushRecord : List Bytes × List Hash → String × ℕ →
    Result AnyhowError (List Bytes × List Hash)
  | (records, leaves), (s, i) => do
    let bytes ← (Result.foreign (hexDecode (trim s))).context s!"record #{i} hex"
    return (records ++ [bytes], leaves ++ [Bsv.doubleSha256 sha256 bytes])

/-- `load_records`. -/
def loadRecords (readToString : String → Except String String)
    (recordsFromStr : String → Except String RecordsFile) (path : String) :
    Result AnyhowError (List Bytes × List Hash) := do
  let raw ← (Result.foreign (readToString path)).context s!"reading records file {path}"
  let parsed ← (Result.foreign (recordsFromStr raw)).context "parsing records JSON"
  parsed.recordsHex.zipIdx.foldlM (pushRecord sha256 hexDecode) ([], [])

end Load

/-! ## `vaa prove` -/

section Prove

variable (sha256 : Bytes → Hash) (hexEncode : Bytes → String)

/-- The bundle `cmd_prove` builds for a record of a loaded list. -/
def proveBundle (records : List Bytes) (leaves : List Hash) (index : ℕ) :
    Result AnyhowError ProofBundle := do
  if records.length ≤ index then
    bail s!"index {index} out of range for {records.length} records"
  else
    let root ← (merkleRoot (Merkle.hashPair sha256) leaves).mapErr ofMerkle
    let proof ← (merkleProof (Merkle.hashPair sha256) leaves index).mapErr ofMerkle
    let leaf ← Result.index leaves index
    let record ← Result.index records index
    return {
      version := 2
      rootDisplayBe := internalToDisplay hexEncode root
      leafDisplayBe := internalToDisplay hexEncode leaf
      siblingsDisplayBe := proof.siblings.map (internalToDisplay hexEncode)
      leafIndex := index
      disclosedRecordHex := hexEncode record }

/-- `cmd_prove`: the contents of the file it writes, and the lines it prints. -/
def cmdProve (hexDecode : String → Except String Bytes)
    (readToString : String → Except String String)
    (recordsFromStr : String → Except String RecordsFile)
    (toStringPretty : ProofBundle → Except String String)
    (write : String → String → Except String Unit)
    (recordsPath : String) (index : ℕ) (outPath : String) :
    Result AnyhowError (String × List String) := do
  let (records, leaves) ← loadRecords sha256 hexDecode readToString recordsFromStr recordsPath
  let bundle ← proveBundle sha256 hexEncode records leaves index
  let pretty ← Result.foreign (toStringPretty bundle)
  (Result.foreign (write outPath pretty)).context s!"writing bundle to {outPath}"
  return (pretty, [s!"wrote proof bundle ({pretty.utf8ByteSize} bytes) to {outPath}"])

end Prove

variable {sha256 : Bytes → Hash} {hexEncode : Bytes → String}
  {hexDecode : String → Except String Bytes} {records : List Bytes} {i : ℕ}

/-! ## Loading -/

/-- The loop of `load_records` decodes the records one by one, and hashes them. -/
theorem foldlM_pushRecord_eq_ok_iff {recordsHex : List String} {k : ℕ}
    {loaded loaded' : List Bytes × List Hash} :
    (recordsHex.zipIdx k).foldlM (pushRecord sha256 hexDecode) loaded = .ok loaded' ↔
      ∃ records, List.Forall₂ (fun s record => hexDecode (trim s) = .ok record)
          recordsHex records ∧
        loaded' = (loaded.1 ++ records, loaded.2 ++ leavesOf sha256 records) := by
  induction recordsHex generalizing k loaded with
  | nil =>
    simp [leavesOf, pure, Except.pure, eq_comm]
  | cons s recordsHex ih =>
    simp only [List.zipIdx_cons, List.foldlM_cons, Result.bind_eq_ok_iff, ih, pushRecord,
      Result.context_eq_ok_iff, Result.foreign_eq_ok_iff, List.forall₂_cons_left_iff]
    constructor
    · rintro ⟨_, ⟨record, hrecord, hpush⟩, records, hrecords, rfl⟩
      cases hpush
      exact ⟨record :: records, ⟨record, records, hrecord, hrecords, rfl⟩, by simp [leavesOf]⟩
    · rintro ⟨_, ⟨record, records, hrecord, hrecords, rfl⟩, rfl⟩
      exact ⟨_, ⟨record, hrecord, rfl⟩, records, hrecords, by simp [leavesOf]⟩

/-- The records of a file are loaded once they decode. -/
theorem loadRecords_of_decode {readToString : String → Except String String}
    {recordsFromStr : String → Except String RecordsFile} {path raw : String}
    {file : RecordsFile} (hread : readToString path = .ok raw)
    (hparse : recordsFromStr raw = .ok file)
    (hdecode : List.Forall₂ (fun s record => hexDecode (trim s) = .ok record) file.recordsHex
      records) : loadRecords sha256 hexDecode readToString recordsFromStr path =
        .ok (records, leavesOf sha256 records) := by
  simp only [loadRecords, Result.bind_eq_ok_iff, Result.context_eq_ok_iff,
    Result.foreign_eq_ok_iff, foldlM_pushRecord_eq_ok_iff]
  exact ⟨raw, hread, file, hparse, records, hdecode, rfl⟩

/-- The leaves loaded are those of the records loaded. -/
theorem loadRecords_leaves {readToString : String → Except String String}
    {recordsFromStr : String → Except String RecordsFile} {path : String} {leaves : List Hash}
    (hload : loadRecords sha256 hexDecode readToString recordsFromStr path =
      .ok (records, leaves)) : leaves = leavesOf sha256 records := by
  simp only [loadRecords, Result.bind_eq_ok_iff, foldlM_pushRecord_eq_ok_iff] at hload
  obtain ⟨_, -, _, -, loaded, -, heq⟩ := hload
  simp only [List.nil_append, Prod.mk.injEq] at heq
  rw [heq.2, heq.1]

/-! ## Display order -/

/-- A hash written in display order is read back. -/
theorem displayToInternal_internalToDisplay (hhex : HexCodec hexEncode hexDecode) (h : Hash) :
    displayToInternal hexDecode (internalToDisplay hexEncode h) = .ok h := by
  have hlen : h.toList.reverse.length = 32 := by simp
  rw [displayToInternal, internalToDisplay, hhex.trim_encode, hhex.decode_encode]
  simp only [Result.foreign, Result.context, Result.mapErr, Bind.bind, Except.bind, hlen, ne_eq,
    not_true_eq_false, if_false, List.reverse_reverse]
  rw [copyFromSlice, dif_pos (by simp)]
  exact congrArg Except.ok (Vector.toList_inj.1 (by simp))

/-! ## Proving, then verifying -/

/-- The bundle of a record, over the leaves of its list. -/
def bundleOf (sha256 : Bytes → Hash) (hexEncode : Bytes → String) (records : List Bytes) (i : ℕ)
    (record : Bytes) : ProofBundle where
  version := 2
  rootDisplayBe :=
    internalToDisplay hexEncode (rootOf (Merkle.hashPair sha256) (leavesOf sha256 records))
  leafDisplayBe := internalToDisplay hexEncode (Bsv.doubleSha256 sha256 record)
  siblingsDisplayBe := (path (Merkle.hashPair sha256) (leavesOf sha256 records) i).map
    (internalToDisplay hexEncode)
  leafIndex := i
  disclosedRecordHex := hexEncode record

/-- `cmd_prove` builds the bundle of the record. -/
theorem proveBundle_eq (sha256 : Bytes → Hash) (hexEncode : Bytes → String) {record : Bytes}
    (hrecord : records[i]? = some record) :
    proveBundle sha256 hexEncode records (leavesOf sha256 records) i =
      .ok (bundleOf sha256 hexEncode records i record) := by
  obtain ⟨hi, -⟩ := List.getElem?_eq_some_iff.1 hrecord
  have hlt : i < (leavesOf sha256 records).length := by simpa [leavesOf] using hi
  have hleaf : (leavesOf sha256 records)[i]? = some (Bsv.doubleSha256 sha256 record) := by
    rw [getElem?_eq_leafAt hlt, leafAt_leavesOf hrecord]
  simp only [proveBundle, if_neg (Nat.not_le.2 hi), merkleRoot_eq _ (ne_nil_of_lt hlt),
    merkleProof_eq _ hlt, Result.index_of_getElem? hleaf, Result.index_of_getElem? hrecord]
  rfl

/-- The bundle of a record decodes to its proof. -/
theorem decodes_bundleOf (hhex : HexCodec hexEncode hexDecode) (records : List Bytes) (i : ℕ)
    (record : Bytes) :
    Decodes hexDecode (bundleOf sha256 hexEncode records i record)
      (Bsv.doubleSha256 sha256 record)
      (rootOf (Merkle.hashPair sha256) (leavesOf sha256 records))
      (path (Merkle.hashPair sha256) (leavesOf sha256 records) i) record where
  leaf_eq := displayToInternal_internalToDisplay hhex _
  root_eq := displayToInternal_internalToDisplay hhex _
  siblings_eq := by
    rw [decodeSiblings_eq_ok_iff, bundleOf, List.forall₂_map_left_iff, List.forall₂_same]
    intro sibling _
    exact displayToInternal_internalToDisplay hhex sibling
  disclosed_eq := by
    rw [bundleOf, hhex.trim_encode, hhex.decode_encode]

/-- The bundle of a record is accepted. -/
theorem verifyBundle_bundleOf (hhex : HexCodec hexEncode hexDecode) {record : Bytes}
    (hrecord : records[i]? = some record) (hindex : i < 2 ^ 32) (tryFromIntError : String) :
    ∃ lines, verifyBundle sha256 hexDecode tryFromIntError
      (bundleOf sha256 hexEncode records i record) = .ok lines := by
  obtain ⟨hi, -⟩ := List.getElem?_eq_some_iff.1 hrecord
  have hlt : i < (leavesOf sha256 records).length := by simpa [leavesOf] using hi
  refine verifyBundle_ok_iff.2 ⟨rfl, hindex, _, _, _, _, decodes_bundleOf hhex records i record,
    rfl, ?_⟩
  rw [← leafAt_leavesOf hrecord]
  exact walk_path _ hlt

/-- `vaa verify` accepts what `vaa prove` writes: for every list of records and every
    index in it that fits 32 bits, the bundle is built and accepted, and so is the file
    it is written to. -/
theorem prove_verify (sha256 : Bytes → Hash) (hexEncode : Bytes → String)
    (hexDecode : String → Except String Bytes) (tryFromIntError : String)
    (toStringPretty : ProofBundle → Except String String)
    (bundleFromStr : String → Except String ProofBundle) (records : List Bytes) (i : ℕ)
    (hhex : HexCodec hexEncode hexDecode)
    (hjson : ∀ bundle text, toStringPretty bundle = .ok text → bundleFromStr text = .ok bundle)
    (hi : i < records.length) (hindex : i < 2 ^ 32) :
    ∃ bundle, proveBundle sha256 hexEncode records (leavesOf sha256 records) i = .ok bundle ∧
      (∃ lines, verifyBundle sha256 hexDecode tryFromIntError bundle = .ok lines) ∧
      ∀ readToString recordsFromStr write recordsPath outPath leaves pretty,
        loadRecords sha256 hexDecode readToString recordsFromStr recordsPath =
          .ok (records, leaves) →
        toStringPretty bundle = .ok pretty → write outPath pretty = .ok () →
        (∃ lines, cmdProve sha256 hexEncode hexDecode readToString recordsFromStr toStringPretty
          write recordsPath i outPath = .ok (pretty, lines)) ∧
        ∀ readBundle : String → Except String String, readBundle outPath = .ok pretty →
          ∃ lines, cmdVerify sha256 hexDecode tryFromIntError readBundle bundleFromStr outPath =
            .ok lines := by
  have hrecord : records[i]? = some records[i] := List.getElem?_eq_getElem hi
  have hbundle := proveBundle_eq sha256 hexEncode hrecord
  refine ⟨_, hbundle, verifyBundle_bundleOf hhex hrecord hindex tryFromIntError, ?_⟩
  intro readToString recordsFromStr write recordsPath outPath leaves pretty hload hpretty hwrite
  obtain rfl := loadRecords_leaves hload
  constructor
  · simp only [cmdProve, Result.bind_eq_ok_iff, Result.context_eq_ok_iff,
      Result.foreign_eq_ok_iff]
    exact ⟨_, _, hload, _, hbundle, _, hpretty, (), hwrite, rfl⟩
  · intro readBundle hread
    rw [cmdVerify_eq hread (hjson _ _ hpretty)]
    exact verifyBundle_bundleOf hhex hrecord hindex tryFromIntError

/-- Three records of one byte: the last leaf is padded. -/
def threeRecords : List Bytes := [[0x61], [0x62], [0x63]]

/-- The bundle of the last of three records. -/
def lastBundle : ProofBundle where
  version := 2
  rootDisplayBe := "bf0ca48d50405f62cb40fa67c6f9fd9309e9a5fcb2ad05d3976ecb28839b4474"
  leafDisplayBe := "d377b92dd7af8f1b25b2ac96f5ac68d0d8ae0e15fc370f89ea0fa36c3d753266"
  siblingsDisplayBe :=
    ["d377b92dd7af8f1b25b2ac96f5ac68d0d8ae0e15fc370f89ea0fa36c3d753266",
      "f01b8b33d4737f715303d502cd8dda6b2ea4f9513c169d94b18b5f2fa1a367b7"]
  leafIndex := 2
  disclosedRecordHex := "63"

/-- The file of the bundle. -/
def lastFile : String :=
  "\x7b\n  \"version\": 2,\n" ++
    "  \"root_display_be\": " ++
    "\"bf0ca48d50405f62cb40fa67c6f9fd9309e9a5fcb2ad05d3976ecb28839b4474\",\n" ++
    "  \"leaf_display_be\": " ++
    "\"d377b92dd7af8f1b25b2ac96f5ac68d0d8ae0e15fc370f89ea0fa36c3d753266\",\n" ++
    "  \"siblings_display_be\": [\n" ++
    "    \"d377b92dd7af8f1b25b2ac96f5ac68d0d8ae0e15fc370f89ea0fa36c3d753266\",\n" ++
    "    \"f01b8b33d4737f715303d502cd8dda6b2ea4f9513c169d94b18b5f2fa1a367b7\"\n  ],\n" ++
    "  \"leaf_index\": 2,\n  \"disclosed_record_hex\": \"63\"\n\x7d"

/-- The JSON encoder, on this bundle. -/
def prettyLast (bundle : ProofBundle) : Except String String :=
  if bundle = lastBundle then .ok lastFile else .error "unexpected bundle"

/-- The JSON parser, on its file. -/
def parseLast (text : String) : Except String ProofBundle :=
  if text = lastFile then .ok lastBundle else .error "expected value at line 1 column 1"

theorem parseLast_prettyLast (bundle : ProofBundle) (text : String)
    (hpretty : prettyLast bundle = .ok text) : parseLast text = .ok bundle := by
  rw [prettyLast] at hpretty
  split at hpretty
  · next heq =>
    rw [← Except.ok.inj hpretty, heq]
    exact if_pos rfl
  · cases hpretty

theorem bundleOf_last : bundleOf Sha256.digest Hex.encode threeRecords 2 [0x63] = lastBundle := by
  decide +kernel

/-- The bundle is the one `vaa prove` builds. -/
example : proveBundle Sha256.digest Hex.encode threeRecords
    (leavesOf Sha256.digest threeRecords) 2 = .ok lastBundle := by
  rw [proveBundle_eq Sha256.digest Hex.encode rfl, bundleOf_last]

theorem prove_verify_three :
    ∃ bundle, proveBundle Sha256.digest Hex.encode threeRecords
        (leavesOf Sha256.digest threeRecords) 2 = .ok bundle ∧
      (∃ lines, verifyBundle Sha256.digest Hex.decode outOfRange bundle = .ok lines) ∧
      ∀ readToString recordsFromStr write recordsPath outPath leaves pretty,
        loadRecords Sha256.digest Hex.decode readToString recordsFromStr recordsPath =
          .ok (threeRecords, leaves) →
        prettyLast bundle = .ok pretty → write outPath pretty = .ok () →
        (∃ lines, cmdProve Sha256.digest Hex.encode Hex.decode readToString recordsFromStr
          prettyLast write recordsPath 2 outPath = .ok (pretty, lines)) ∧
        ∀ readBundle : String → Except String String, readBundle outPath = .ok pretty →
          ∃ lines, cmdVerify Sha256.digest Hex.decode outOfRange readBundle parseLast outPath =
            .ok lines :=
  prove_verify Sha256.digest Hex.encode Hex.decode outOfRange prettyLast parseLast threeRecords 2
    Hex.hexCodec parseLast_prettyLast (by decide) (by decide)

/-! ## Selective disclosure -/

/-- Two lists of records that share a record and the siblings of its proof have one root. -/
theorem rootOf_eq_of_path_eq {leaves leaves' : List Hash} (hi : i < leaves.length)
    (hi' : i < leaves'.length) (hleaf : leafAt leaves i = leafAt leaves' i)
    (hpath : path (Merkle.hashPair sha256) leaves i = path (Merkle.hashPair sha256) leaves' i) :
    rootOf (Merkle.hashPair sha256) leaves = rootOf (Merkle.hashPair sha256) leaves' := by
  rw [← walk_path _ hi, ← walk_path _ hi', hleaf, hpath]

/-- Two lists of records with the same record at an index, and the same siblings of its
    proof, have the same bundle for it, and leave the same stored proof for it: the
    root tells nothing else about the other records. -/
theorem selective_disclosure (sha256 : Bytes → Hash) (hexEncode : Bytes → String)
    (records records' : List Bytes) (i : ℕ) (record : Bytes) (proof proof' : MerkleProof)
    (hrecord : records[i]? = some record) (hrecord' : records'[i]? = some record)
    (hproof : merkleProof (Merkle.hashPair sha256) (leavesOf sha256 records) i = .ok proof)
    (hproof' : merkleProof (Merkle.hashPair sha256) (leavesOf sha256 records') i = .ok proof')
    (hsiblings : proof.siblings = proof'.siblings) :
    (∃ bundle, proveBundle sha256 hexEncode records (leavesOf sha256 records) i = .ok bundle ∧
      proveBundle sha256 hexEncode records' (leavesOf sha256 records') i = .ok bundle) ∧
    ∀ (store store' : ProofStore) (key : IndexKey),
      store.predeterminedLevel = store'.predeterminedLevel → ∃ stored,
        (store.anchor sha256 key (leavesOf sha256 records) i).1.query key = .ok stored ∧
        (store'.anchor sha256 key (leavesOf sha256 records') i).1.query key = .ok stored := by
  obtain ⟨hi, rfl⟩ := merkleProof_eq_ok_iff.1 hproof
  obtain ⟨hi', rfl⟩ := merkleProof_eq_ok_iff.1 hproof'
  have hleaf : leafAt (leavesOf sha256 records) i = leafAt (leavesOf sha256 records') i := by
    rw [leafAt_leavesOf hrecord, leafAt_leavesOf hrecord']
  have hroot := rootOf_eq_of_path_eq hi hi' hleaf hsiblings
  constructor
  · refine ⟨_, proveBundle_eq sha256 hexEncode hrecord, ?_⟩
    rw [proveBundle_eq sha256 hexEncode hrecord', bundleOf, bundleOf, hroot]
    simp only at hsiblings
    rw [hsiblings]
  · intro store store' key hlevel
    refine ⟨_, query_anchor sha256 store key hi, ?_⟩
    rw [query_anchor sha256 store' key hi', storedOf, storedOf, hroot, hlevel]
    simp only at hsiblings
    rw [hsiblings]

/-- Writing out the copy of a padded last record changes nothing of its bundle. -/
theorem selective_disclosure_three :
    (∃ bundle, proveBundle Sha256.digest Hex.encode threeRecords
        (leavesOf Sha256.digest threeRecords) 2 = .ok bundle ∧
      proveBundle Sha256.digest Hex.encode (threeRecords ++ [[0x63]])
        (leavesOf Sha256.digest (threeRecords ++ [[0x63]])) 2 = .ok bundle) ∧
    ∀ (store store' : ProofStore) (key : IndexKey),
      store.predeterminedLevel = store'.predeterminedLevel → ∃ stored,
        (store.anchor Sha256.digest key (leavesOf Sha256.digest threeRecords) 2).1.query key =
          .ok stored ∧
        (store'.anchor Sha256.digest key
          (leavesOf Sha256.digest (threeRecords ++ [[0x63]])) 2).1.query key = .ok stored :=
  selective_disclosure Sha256.digest Hex.encode threeRecords (threeRecords ++ [[0x63]]) 2 [0x63]
    _ _ rfl rfl (merkleProof_eq _ (by decide)) (merkleProof_eq _ (by decide)) rfl

end Vaa.Cli
