import Vaa.Cli.Prove

/-!
# Roots on display

`vaa anchor` loads the leaves of a file, in display order, and prints their root
(`cmdAnchor`); `vaa query` loads a list of records, anchors them and prints the root,
the shards of one of them and the number of labels (`cmdQuery`).

A hash is read exactly from the strings of 64 digits, and written back in lower case
(`displayToInternal_eq_ok_iff`); so the three commands that come to the root of a list
of records, `vaa prove` included, write the same string (`codec_exact`).
-/

namespace Vaa.Cli

open PairTree Merkle ProofStore

/-- `LeavesFile`: a list of leaves as written in its file. -/
structure LeavesFile where
  leavesDisplayBe : List String
  deriving DecidableEq, Repr

/-- `load_leaves`. -/
def loadLeaves (hexDecode : String → Except String Bytes)
    (readToString : String → Except String String)
    (leavesFromStr : String → Except String LeavesFile) (path : String) :
    Result AnyhowError (List Hash) := do
  let raw ← (Result.foreign (readToString path)).context s!"reading leaves file {path}"
  let parsed ← (Result.foreign (leavesFromStr raw)).context "parsing leaves JSON"
  parsed.leavesDisplayBe.zipIdx.mapM fun (s, i) =>
    (displayToInternal hexDecode s).context s!"leaf #{i}: {s}"

section Hash

variable (sha256 : Bytes → Hash) (hexEncode : Bytes → String)
  (hexDecode : String → Except String Bytes) (tryFromIntError : String)
  (readToString : String → Except String String)

/-- `cmd_anchor`. -/
def cmdAnchor (leavesFromStr : String → Except String LeavesFile) (leavesPath : String) :
    Result AnyhowError (List String) := do
  let leaves ← loadLeaves hexDecode readToString leavesFromStr leavesPath
  let rootInternal ← (merkleRoot (Merkle.hashPair sha256) leaves).mapErr ofMerkle
  let rootDisplay := internalToDisplay hexEncode rootInternal
  return [s!"leaves          : {leaves.length}",
    s!"root (display)  : {rootDisplay}",
    s!"root (internal) : {hexEncode rootInternal.toList}"]

/-- The lines `cmd_query` prints for the shards. -/
def shardLines (shards : List ProofShard) : List String :=
  shards.zipIdx.map fun (s, i) =>
    s!"    shard {i}: levels [{s.fromLevel}, {s.toLevel}), {s.siblings.length} siblings"

/-- The line `cmd_query` prints for the proof assistance. -/
def assistanceLines (assistance : Option ProofAssistance) : List String :=
  match assistance with
  | some a => [s!"  assistance    : {a.nodeLabels.length} labels at level {a.predeterminedLevel}"]
  | none => []

/-- The lines `cmd_query` prints for an anchored record. -/
def queryLines (root : Hash) (stored : StoredProof) (assistance : Option ProofAssistance)
    (index : ℕ) (record : Bytes) : List String :=
  ["query OK",
    s!"  root (display): {internalToDisplay hexEncode root}",
    s!"  leaf index    : {stored.leafIndex}",
    s!"  shards        : {stored.shards.length}"] ++
    shardLines stored.shards ++ assistanceLines assistance ++
    [s!"  disclosed     : {record.length} bytes for record #{index} " ++
      "(selective disclosure: other records not revealed)"]

/-- `cmd_query`. -/
def cmdQuery (recordsFromStr : String → Except String RecordsFile) (recordsPath : String)
    (index level : ℕ) : Result AnyhowError (List String) := do
  let (records, leaves) ← loadRecords sha256 hexDecode readToString recordsFromStr recordsPath
  if records.length ≤ index then
    bail s!"index {index} out of range for {records.length} records"
  else
    let store := ProofStore.new level
    let leaf ← Result.index leaves index
    let blockPosition ← (u32TryFrom tryFromIntError index).context "index does not fit u32"
    let key : IndexKey :=
      { txid := leaf, direction := .output, position := 0, blockPosition := blockPosition
        lockingScript := none, unlockingScript := none, amount := none }
    let (store, anchored) := store.anchor sha256 key leaves index
    let root ← anchored.mapErr ofProofStore
    let stored ← (store.query key).mapErr ofProofStore
    (ProofStore.verify sha256 leaf stored .adversarial).mapErr ofProofStore
    let record ← Result.index records index
    return queryLines hexEncode root stored (store.proofAssistanceFor root) index record

end Hash

variable {sha256 : Bytes → Hash} {hexEncode : Bytes → String}
  {hexDecode : String → Except String Bytes} {records : List Bytes}

/-! ## Display order -/

/-- A string is read as the hash whose bytes it decodes to, in reverse. -/
theorem displayToInternal_eq_ok_iff {s : String} {h : Hash} :
    displayToInternal hexDecode s = .ok h ↔ hexDecode (trim s) = .ok h.toList.reverse := by
  simp only [displayToInternal, Result.bind_eq_ok_iff, Result.context_eq_ok_iff,
    Result.foreign_eq_ok_iff]
  constructor
  · rintro ⟨bytes, hdecode, hcopy⟩
    by_cases hlen : bytes.length = 32
    · rw [if_neg (not_not.2 hlen), copyFromSlice, dif_pos (by rwa [List.length_reverse]),
        Except.ok.injEq] at hcopy
      rw [hdecode, ← hcopy]
      simp
    · rw [if_pos hlen] at hcopy
      cases hcopy
  · intro hdecode
    have hlen : h.toList.reverse.length = 32 := by simp
    refine ⟨_, hdecode, ?_⟩
    rw [if_neg (not_not.2 hlen), copyFromSlice, dif_pos (by simp)]
    exact congrArg Except.ok (Vector.toList_inj.1 (by simp))

/-- The strings read as a hash are those of 64 digits. -/
theorem exists_displayToInternal_iff (hhex : HexCrate hexEncode hexDecode) (s : String) :
    (∃ h, displayToInternal hexDecode s = .ok h) ↔
      (trim s).length = 64 ∧ ∀ c ∈ (trim s).toList, (Hex.value c).isSome := by
  simp only [displayToInternal_eq_ok_iff]
  rw [← hhex.exists_decode_iff (m := 32)]
  constructor
  · rintro ⟨h, hdecode⟩
    exact ⟨_, hdecode, by simp⟩
  · rintro ⟨bytes, hdecode, hlen⟩
    refine ⟨⟨bytes.reverse.toArray, by simpa using hlen⟩, ?_⟩
    rw [hdecode]
    simp

/-- A string read as a hash is written back in lower case. -/
theorem internalToDisplay_of_displayToInternal (hhex : HexCrate hexEncode hexDecode) {s : String}
    {h : Hash} (hread : displayToInternal hexDecode s = .ok h) :
    internalToDisplay hexEncode h = (trim s).toLower :=
  hhex.encode_of_decode (displayToInternal_eq_ok_iff.1 hread)

/-! ## The commands -/

/-- The leaves of a file are read one by one. -/
theorem loadLeaves_eq_ok_iff {readToString : String → Except String String}
    {leavesFromStr : String → Except String LeavesFile} {path raw : String} {file : LeavesFile}
    {leaves : List Hash} (hread : readToString path = .ok raw)
    (hparse : leavesFromStr raw = .ok file) :
    loadLeaves hexDecode readToString leavesFromStr path = .ok leaves ↔
      List.Forall₂ (fun s leaf => displayToInternal hexDecode s = .ok leaf)
        file.leavesDisplayBe leaves := by
  simp only [loadLeaves, Result.bind_eq_ok_iff, Result.context_eq_ok_iff,
    Result.foreign_eq_ok_iff, Result.mapM_eq_ok_iff, hread, hparse, Except.ok.injEq,
    exists_eq_left']
  exact Result.forall₂_zipIdx_iff (R := fun s leaf => displayToInternal hexDecode s = .ok leaf)

/-- `vaa anchor` prints the root of the leaves loaded. -/
theorem cmdAnchor_of_load {readToString : String → Except String String}
    {leavesFromStr : String → Except String LeavesFile} {path : String} {leaves : List Hash}
    (hload : loadLeaves hexDecode readToString leavesFromStr path = .ok leaves)
    (hne : leaves ≠ []) :
    cmdAnchor sha256 hexEncode hexDecode readToString leavesFromStr path =
      .ok [s!"leaves          : {leaves.length}",
        s!"root (display)  : {internalToDisplay hexEncode
          (rootOf (Merkle.hashPair sha256) leaves)}",
        s!"root (internal) : {hexEncode (rootOf (Merkle.hashPair sha256) leaves).toList}"] := by
  simp only [cmdAnchor, Result.bind_eq_ok_iff, Result.mapErr_eq_ok_iff]
  exact ⟨leaves, hload, _, merkleRoot_eq _ hne, rfl⟩

/-- `vaa query` prints the root of the records loaded, the shards of the record, and the
    labels of their tree. -/
theorem cmdQuery_of_load (hexEncode : Bytes → String) (tryFromIntError : String)
    {readToString : String → Except String String}
    {recordsFromStr : String → Except String RecordsFile} {path : String} {leaves : List Hash}
    (hload : loadRecords sha256 hexDecode readToString recordsFromStr path =
      .ok (records, leaves)) {i : ℕ} {record : Bytes} (hrecord : records[i]? = some record)
    (hindex : i < 2 ^ 32) (level : ℕ) : ∃ key,
      cmdQuery sha256 hexEncode hexDecode tryFromIntError readToString recordsFromStr path i
          level =
        .ok (queryLines hexEncode (rootOf (Merkle.hashPair sha256) leaves)
          (storedOf sha256 level key leaves i) (some (assistanceOf sha256 level leaves)) i
          record) := by
  obtain rfl := loadRecords_leaves hload
  obtain ⟨hi, -⟩ := List.getElem?_eq_some_iff.1 hrecord
  have hlt : i < (leavesOf sha256 records).length := by simpa [leavesOf] using hi
  have hleaf : (leavesOf sha256 records)[i]? = some (leafAt (leavesOf sha256 records) i) :=
    getElem?_eq_leafAt hlt
  have hverify (key : IndexKey) : ProofStore.verify sha256 (leafAt (leavesOf sha256 records) i)
      (storedOf sha256 level key (leavesOf sha256 records) i) .adversarial = .ok () := by
    rw [ProofStore.verify_eq_ok_iff, reassemble_storedOf]
    exact walk_path _ hlt
  have hblock : u32TryFrom tryFromIntError i = .ok (UInt32.ofNat i) := if_pos hindex
  let key : IndexKey :=
    { txid := leafAt (leavesOf sha256 records) i, direction := .output, position := 0
      blockPosition := UInt32.ofNat i, lockingScript := none, unlockingScript := none
      amount := none }
  have hanchor := anchor_eq sha256 (ProofStore.new level) key hlt
  refine ⟨key, ?_⟩
  simp only [cmdQuery, Result.bind_eq_ok_iff]
  refine ⟨(records, leavesOf sha256 records), hload, ?_⟩
  simp only [if_neg (Nat.not_le.2 hi), Result.bind_eq_ok_iff, Result.context_eq_ok_iff,
    Result.mapErr_eq_ok_iff, Result.index_of_getElem? hleaf, Result.index_of_getElem? hrecord]
  refine ⟨_, rfl, _, hblock, _, congrArg Prod.snd hanchor, _, query_anchor sha256 _ key hlt, (),
    hverify key, _, rfl, ?_⟩
  have hlabels : ((ProofStore.new level).anchor sha256 key (leavesOf sha256 records)
      i).1.proofAssistanceFor (rootOf (Merkle.hashPair sha256) (leavesOf sha256 records)) =
      some (assistanceOf sha256 level (leavesOf sha256 records)) := by
    rw [hanchor]
    exact Function.update_self ..
  rw [← hlabels]
  rfl

/-- The codec is exact: a hash written is read back, exactly the strings of 64 digits
    within whitespace are read, and those are written back in lower case. So the root
    `vaa anchor` prints for the leaves of some records in display order is the one of the
    bundles of `vaa prove`, and of the lines of `vaa query`. -/
theorem codec_exact (sha256 : Bytes → Hash) (hexEncode : Bytes → String)
    (hexDecode : String → Except String Bytes) (tryFromIntError : String)
    (hhex : HexCrate hexEncode hexDecode) :
    (∀ h, displayToInternal hexDecode (internalToDisplay hexEncode h) = .ok h) ∧
    (∀ s, (∃ h, displayToInternal hexDecode s = .ok h) ↔
      (trim s).length = 64 ∧ ∀ c ∈ (trim s).toList, (Hex.value c).isSome) ∧
    (∀ s h, displayToInternal hexDecode s = .ok h →
      internalToDisplay hexEncode h = (trim s).toLower) ∧
    ∀ records : List Bytes, records ≠ [] → ∃ root,
      (∀ readToString leavesFromStr path raw, readToString path = .ok raw →
        leavesFromStr raw = .ok
          { leavesDisplayBe := (leavesOf sha256 records).map (internalToDisplay hexEncode) } →
        ∃ count internal,
          cmdAnchor sha256 hexEncode hexDecode readToString leavesFromStr path =
            .ok [count, s!"root (display)  : {root}", internal]) ∧
      ∀ readToString recordsFromStr path leaves,
        loadRecords sha256 hexDecode readToString recordsFromStr path = .ok (records, leaves) →
        ∀ i < records.length,
          (∃ bundle : ProofBundle, bundle.rootDisplayBe = root ∧
            ∀ toStringPretty write outPath pretty, toStringPretty bundle = .ok pretty →
              write outPath pretty = .ok () → ∃ lines,
                cmdProve sha256 hexEncode hexDecode readToString recordsFromStr toStringPretty
                  write path i outPath = .ok (pretty, lines)) ∧
          (i < 2 ^ 32 → ∀ level, ∃ lines,
            cmdQuery sha256 hexEncode hexDecode tryFromIntError readToString recordsFromStr path i
                level =
              .ok ("query OK" :: s!"  root (display): {root}" :: lines)) := by
  refine ⟨displayToInternal_internalToDisplay hhex.codec, exists_displayToInternal_iff hhex,
    fun s h => internalToDisplay_of_displayToInternal hhex, fun records hne => ?_⟩
  refine ⟨internalToDisplay hexEncode (rootOf (Merkle.hashPair sha256) (leavesOf sha256 records)),
    fun readToString leavesFromStr path raw hread hparse => ?_,
    fun readToString recordsFromStr path leaves hload i hi => ⟨?_, fun hindex level => ?_⟩⟩
  · have hload : loadLeaves hexDecode readToString leavesFromStr path =
        .ok (leavesOf sha256 records) := by
      rw [loadLeaves_eq_ok_iff hread hparse, List.forall₂_map_left_iff, List.forall₂_same]
      intro leaf _
      exact displayToInternal_internalToDisplay hhex.codec leaf
    exact ⟨_, _, cmdAnchor_of_load hload (leavesOf_ne_nil hne)⟩
  · have hbundle := proveBundle_eq sha256 hexEncode (List.getElem?_eq_getElem hi)
    refine ⟨bundleOf sha256 hexEncode records i records[i], rfl,
      fun toStringPretty write outPath pretty hpretty hwrite => ?_⟩
    simp only [cmdProve, Result.bind_eq_ok_iff, Result.context_eq_ok_iff,
      Result.foreign_eq_ok_iff]
    obtain rfl := loadRecords_leaves hload
    exact ⟨_, _, hload, _, hbundle, _, hpretty, (), hwrite, rfl⟩
  · obtain ⟨key, hquery⟩ := cmdQuery_of_load hexEncode tryFromIntError hload
      (List.getElem?_eq_getElem hi) hindex level
    obtain rfl := loadRecords_leaves hload
    exact ⟨_, hquery⟩

theorem codec_exact_concrete :
    (∀ h, displayToInternal Hex.decode (internalToDisplay Hex.encode h) = .ok h) ∧
    (∀ s, (∃ h, displayToInternal Hex.decode s = .ok h) ↔
      (trim s).length = 64 ∧ ∀ c ∈ (trim s).toList, (Hex.value c).isSome) ∧
    (∀ s h, displayToInternal Hex.decode s = .ok h →
      internalToDisplay Hex.encode h = (trim s).toLower) ∧
    ∃ root,
      (∀ readToString leavesFromStr path raw, readToString path = .ok raw →
        leavesFromStr raw = .ok
          { leavesDisplayBe :=
              (leavesOf Sha256.digest threeRecords).map (internalToDisplay Hex.encode) } →
        ∃ count internal,
          cmdAnchor Sha256.digest Hex.encode Hex.decode readToString leavesFromStr path =
            .ok [count, s!"root (display)  : {root}", internal]) ∧
      ∀ readToString recordsFromStr path leaves,
        loadRecords Sha256.digest Hex.decode readToString recordsFromStr path =
          .ok (threeRecords, leaves) →
        ∀ i < 3,
          (∃ bundle : ProofBundle, bundle.rootDisplayBe = root ∧
            ∀ toStringPretty write outPath pretty, toStringPretty bundle = .ok pretty →
              write outPath pretty = .ok () → ∃ lines,
                cmdProve Sha256.digest Hex.encode Hex.decode readToString recordsFromStr
                  toStringPretty write path i outPath = .ok (pretty, lines)) ∧
          (i < 2 ^ 32 → ∀ level, ∃ lines,
            cmdQuery Sha256.digest Hex.encode Hex.decode outOfRange readToString recordsFromStr
                path i level =
              .ok ("query OK" :: s!"  root (display): {root}" :: lines)) :=
  have hexact := codec_exact Sha256.digest Hex.encode Hex.decode outOfRange Hex.hexCrate
  ⟨hexact.1, hexact.2.1, hexact.2.2.1, hexact.2.2.2 threeRecords (by decide)⟩

end Vaa.Cli
