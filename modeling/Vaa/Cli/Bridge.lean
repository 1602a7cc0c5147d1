import Vaa.Cli.Settlement
import Vaa.Json.Write

/-!
# The flows of the bridge

Besides the settlements, `bridge.py` takes two lists to the commands.

`verify-bsv-block` compares the root of the transaction ids of a block with the one of its
header. It ends well exactly when the ids are read as hashes and their tree has the root
(`verifyBsvBlock_eq_ok_iff`); two blocks of one length that it accepts under one root list the
same ids, up to the case of their digits, or their trees collide
(`verified_blocks_agree`).

`anchor-records` anchors some synthetic records, and has the bundle of one of them written
and verified. It ends well for every index of the list that fits 32 bits, with a bundle
under the root printed (`anchor_records_iff`), unlike the settlements, whose bundle has
another root: they end well for every transaction id of a verified block all the same
(`from_settlement_iff`).
-/

namespace Vaa.Cli

open PairTree Merkle ProofStore Codes

/-! ## The script -/

section Script

variable (sha256 : Bytes → Hash) (hexEncode : Bytes → String)
  (hexDecode : String → Except String Bytes) (tryFromIntError : String) (files : Files)

/-- `cmd_verify_bsv_block`, from the block fetched on. -/
def verifyBsvBlock (block : Block) : Except String Unit :=
  if block.tx = [] then
    .error ("BSV API returned no tx list (this block may be pruned at the public endpoint). " ++
      "Try a different height or a non-pruned endpoint.")
  else do
    let out ← runVaa "anchor" (anchorTxids sha256 hexEncode hexDecode files block.tx)
    match computedRoot out with
    | none => .error "could not parse computed root from `vaa anchor` output"
    | some root =>
      if root ≠ block.merkleroot then
        .error ("MERKLE-ROOT MISMATCH\n" ++ s!"  computed by vaa : {root}\n" ++
          s!"  header value    : {block.merkleroot}\n" ++
          "This means the leaves we fed to vaa do not match the canonical " ++
          "tx-order of the block. Check the tx list ordering and byte order.")
      else
        return ()

/-- `f"{n:02d}"`. -/
def twoDigits (n : ℕ) : String := if n < 10 then s!"0{n}" else s!"{n}"

/-- The turn of the loop of `synthetic_records`, with the keys sorted. -/
def syntheticRecord (i : ℕ) : Bytes :=
  Json.object [("counterparty", Json.string s!"counterparty-{twoDigits (i % 12)}"),
    ("id", Json.number i),
    ("kind", Json.string (if i % 2 = 0 then "invoice" else "receipt")),
    ("value", Json.number (1000000 + i * 137 % 9000000))]

/-- `synthetic_records`. -/
def syntheticRecords (n : ℕ) : List Bytes := (List.range n).map syntheticRecord

/-- `cmd_anchor_records`: the lines of `vaa anchor`, and the bundle written. -/
def anchorRecords (recordsCount index : ℕ) : Except String (List String × String) := do
  let records := syntheticRecords recordsCount
  let leaves := records.map (Bsv.doubleSha256 sha256)
  let out ← runVaa "anchor" (cmdAnchor sha256 hexEncode hexDecode
    (fun _ => .ok (files.dumpLeaves
      { leavesDisplayBe := leaves.map (internalToDisplay hexEncode) }))
    files.leavesFromStr "leaves.json")
  if records.length ≤ index then
    .error s!"--index {index} out of range for {records.length} records"
  else
    let (bundle, _) ← runVaa "prove" (cmdProve sha256 hexEncode hexDecode
      (fun _ => .ok (files.dumpRecords { recordsHex := records.map hexEncode }))
      files.recordsFromStr files.toStringPretty (fun _ _ => .ok ()) "records.json" index
      "bundle.json")
    let _out ← runVaa "verify" (cmdVerify sha256 hexDecode tryFromIntError
      (fun _ => .ok bundle) files.bundleFromStr "bundle.json")
    return (out, bundle)

end Script

/-! ## Commands of a script -/

section Commands

variable {sha256 : Bytes → Hash} {hexEncode : Bytes → String}
  {hexDecode : String → Except String Bytes} {files : Files} {txids : List String}

theorem bind_runVaa_eq_ok_iff {α β : Type} {command : String} {x : Result AnyhowError α}
    {f : α → Except String β} {b : β} :
    runVaa command x >>= f = .ok b ↔ ∃ a, x = .ok a ∧ f a = .ok b := by
  cases x with
  | ok a => exact ⟨fun h => ⟨a, rfl, h⟩, fun ⟨_, h, hb⟩ => Except.ok.inj h ▸ hb⟩
  | error fault => exact iff_of_false nofun fun ⟨_, h, _⟩ => nomatch h

/-- The lines of `vaa anchor` are those of the tree of the transaction ids. -/
theorem anchorTxids_eq_ok_iff
    (hfile : files.leavesFromStr (files.dumpLeaves { leavesDisplayBe := txids }) =
      .ok { leavesDisplayBe := txids }) {out : List String} :
    anchorTxids sha256 hexEncode hexDecode files txids = .ok out ↔ ∃ leaves, leaves ≠ [] ∧
      List.Forall₂ (fun t leaf => displayToInternal hexDecode t = .ok leaf) txids leaves ∧
      out = [s!"leaves          : {leaves.length}",
        s!"root (display)  : {internalToDisplay hexEncode
          (rootOf (Merkle.hashPair sha256) leaves)}",
        s!"root (internal) : {hexEncode (rootOf (Merkle.hashPair sha256) leaves).toList}"] := by
  have hload (leaves : List Hash) : loadLeaves hexDecode
      (fun _ => .ok (files.dumpLeaves { leavesDisplayBe := txids })) files.leavesFromStr
      "leaves.json" = .ok leaves ↔
      List.Forall₂ (fun t leaf => displayToInternal hexDecode t = .ok leaf) txids leaves :=
    loadLeaves_eq_ok_iff rfl hfile
  simp only [anchorTxids, cmdAnchor, Result.bind_eq_ok_iff, Result.mapErr_eq_ok_iff, hload,
    merkleRoot_eq_ok_iff]
  constructor
  · rintro ⟨leaves, hleaves, _, ⟨hne, rfl⟩, ⟨⟩⟩
    exact ⟨leaves, hne, hleaves, rfl⟩
  · rintro ⟨leaves, hne, hleaves, rfl⟩
    exact ⟨leaves, hleaves, _, ⟨hne, rfl⟩, rfl⟩

/-- The script reads the root of the tree from these lines. -/
theorem computedRoot_anchored (hhex : HexCrate hexEncode hexDecode) (leaves : List Hash)
    (internal : String) :
    computedRoot [s!"leaves          : {leaves.length}",
      s!"root (display)  : {internalToDisplay hexEncode
        (rootOf (Merkle.hashPair sha256) leaves)}", internal] =
      some (internalToDisplay hexEncode (rootOf (Merkle.hashPair sha256) leaves)) :=
  have htxid := isTxid_internalToDisplay hhex (rootOf (Merkle.hashPair sha256) leaves)
  computedRoot_lines htxid.ne_nil htxid.isSpace

end Commands

/-! ## Blocks -/

section Blocks

/-- The ids of a block are read as the leaves of a tree with its root. -/
structure Block.HasTree (sha256 : Bytes → Hash) (hexEncode : Bytes → String)
    (hexDecode : String → Except String Bytes) (block : Block) (leaves : List Hash) : Prop where
  ne_nil : leaves ≠ []
  reads : List.Forall₂ (fun t leaf => displayToInternal hexDecode t = .ok leaf) block.tx leaves
  merkleroot_eq : block.merkleroot =
    internalToDisplay hexEncode (rootOf (Merkle.hashPair sha256) leaves)

variable {sha256 : Bytes → Hash} {hexEncode : Bytes → String}
  {hexDecode : String → Except String Bytes} {files : Files} {block : Block}
  {txids : List String} {leaves : List Hash}

/-- A block is verified exactly when its ids have a tree under the root of its header. -/
theorem verifyBsvBlock_eq_ok_iff (hhex : HexCrate hexEncode hexDecode)
    (hfile : files.leavesFromStr (files.dumpLeaves { leavesDisplayBe := block.tx }) =
      .ok { leavesDisplayBe := block.tx }) :
    verifyBsvBlock sha256 hexEncode hexDecode files block = .ok () ↔
      ∃ leaves, block.HasTree sha256 hexEncode hexDecode leaves := by
  rw [verifyBsvBlock]
  split
  · -- A block without ids is refused before any command runs.
    next hnil =>
    refine iff_of_false nofun ?_
    rintro ⟨leaves, hne, hreads, -⟩
    rw [hnil, List.forall₂_nil_left_iff] at hreads
    exact hne hreads
  · rw [bind_runVaa_eq_ok_iff]
    simp only [anchorTxids_eq_ok_iff hfile]
    constructor
    · rintro ⟨_, ⟨leaves, hne, hreads, rfl⟩, hcheck⟩
      rw [computedRoot_anchored hhex] at hcheck
      simp only at hcheck
      split at hcheck
      · cases hcheck
      · next hroot => exact ⟨leaves, hne, hreads, (not_not.1 hroot).symm⟩
    · rintro ⟨leaves, hne, hreads, hroot⟩
      refine ⟨_, ⟨leaves, hne, hreads, rfl⟩, ?_⟩
      rw [computedRoot_anchored hhex]
      exact if_neg (not_not.2 hroot.symm)

/-- Ids read as the same hashes are the same, up to whitespace around them and the case of
    their digits. -/
theorem map_toLower_eq (hhex : HexCrate hexEncode hexDecode)
    (hreads : List.Forall₂ (fun t leaf => displayToInternal hexDecode t = .ok leaf) txids
      leaves) :
    txids.map (fun t => (trim t).toLower) = leaves.map (internalToDisplay hexEncode) := by
  induction hreads with
  | nil => rfl
  | cons hread _ ih =>
    rw [List.map_cons, List.map_cons, ih, internalToDisplay_of_displayToInternal hhex hread]

/-- Two verified blocks with one root and as many ids have the same ids, up to whitespace
    and case, or two different inputs hashed for their trees collide. -/
theorem verified_blocks_agree (sha256 : Bytes → Hash) (hexEncode : Bytes → String)
    (hexDecode : String → Except String Bytes) (files : Files) (block block' : Block)
    (hhex : HexCrate hexEncode hexDecode)
    (hfile : files.leavesFromStr (files.dumpLeaves { leavesDisplayBe := block.tx }) =
      .ok { leavesDisplayBe := block.tx })
    (hfile' : files.leavesFromStr (files.dumpLeaves { leavesDisplayBe := block'.tx }) =
      .ok { leavesDisplayBe := block'.tx })
    (hverified : verifyBsvBlock sha256 hexEncode hexDecode files block = .ok ())
    (hverified' : verifyBsvBlock sha256 hexEncode hexDecode files block' = .ok ())
    (hroot : block.merkleroot = block'.merkleroot)
    (hlength : block.tx.length = block'.tx.length) :
    block.tx.map (fun t => (trim t).toLower) = block'.tx.map (fun t => (trim t).toLower) ∨
      ∃ leaves leaves', block.HasTree sha256 hexEncode hexDecode leaves ∧
        block'.HasTree sha256 hexEncode hexDecode leaves' ∧
        Bsv.Collides sha256 (treeInputs sha256 leaves) (treeInputs sha256 leaves') := by
  obtain ⟨leaves, htree⟩ := (verifyBsvBlock_eq_ok_iff hhex hfile).1 hverified
  obtain ⟨leaves', htree'⟩ := (verifyBsvBlock_eq_ok_iff hhex hfile').1 hverified'
  have hlen : leaves.length = leaves'.length := by
    rw [← htree.reads.length_eq, hlength, htree'.reads.length_eq]
  have hroots : rootOf (Merkle.hashPair sha256) leaves =
      rootOf (Merkle.hashPair sha256) leaves' := by
    rw [← internalToDisplay_inj hhex.codec, ← htree.merkleroot_eq, hroot, htree'.merkleroot_eq]
  rcases expansion_eq_of_rootOf_eq htree.ne_nil htree'.ne_nil (congrArg height hlen) hroots with
    hexpansion | hc
  · left
    rw [map_toLower_eq hhex htree.reads, map_toLower_eq hhex htree'.reads,
      eq_of_expansion_eq hlen hexpansion]
  · exact .inr ⟨leaves, leaves', htree, htree', collides_of_collision hc⟩

/-- The ids of a block in upper case are those of the block. -/
theorem verified_blocks_agree_pair :
    pairBlock.tx.map (fun t => (trim t).toLower) =
        upperPairBlock.tx.map (fun t => (trim t).toLower) ∨
      ∃ leaves leaves', pairBlock.HasTree Sha256.digest Hex.encode Hex.decode leaves ∧
        upperPairBlock.HasTree Sha256.digest Hex.encode Hex.decode leaves' ∧
        Bsv.Collides Sha256.digest (treeInputs Sha256.digest leaves)
          (treeInputs Sha256.digest leaves') := by
  have hfile' : pairFiles.leavesFromStr
      (pairFiles.dumpLeaves { leavesDisplayBe := upperPairBlock.tx }) =
      .ok { leavesDisplayBe := upperPairBlock.tx } :=
    leavesFromStr_known (List.mem_cons_of_mem _ List.mem_cons_self) (by decide +kernel)
  have hreads' : List.Forall₂ (fun t leaf => displayToInternal Hex.decode t = .ok leaf)
      upperPairBlock.tx pairLeaves :=
    .cons (by decide +kernel) (.cons (by decide +kernel) .nil)
  have hverified :
      verifyBsvBlock Sha256.digest Hex.encode Hex.decode pairFiles pairBlock = .ok () :=
    (verifyBsvBlock_eq_ok_iff Hex.hexCrate leavesFromStr_pair).2
      ⟨pairLeaves, List.cons_ne_nil _ _, forall₂_pair, display_pairRoot⟩
  have hverified' :
      verifyBsvBlock Sha256.digest Hex.encode Hex.decode pairFiles upperPairBlock = .ok () :=
    (verifyBsvBlock_eq_ok_iff Hex.hexCrate hfile').2
      ⟨pairLeaves, List.cons_ne_nil _ _, hreads', display_pairRoot⟩
  exact verified_blocks_agree Sha256.digest Hex.encode Hex.decode pairFiles pairBlock
    upperPairBlock Hex.hexCrate leavesFromStr_pair hfile' hverified hverified' rfl rfl

end Blocks

/-! ## Settlements -/

section Settlements

variable {sha256 : Bytes → Hash} {hexEncode : Bytes → String}
  {hexDecode : String → Except String Bytes} {tryFromIntError : String} {files : Files}
  {block : Block} {leaves : List Hash} {height : ℕ} {t : String}

/-- The script goes on only with an id that is found in the block. -/
theorem exists_mem_of_fromSettlement {txid : Option String} {out : ℕ × String}
    (hok : fromSettlement sha256 hexEncode hexDecode tryFromIntError files txid block height =
      .ok out) :
    ∃ t, txid = some t ∧ t.length = 64 ∧ t ∈ block.tx := by
  rw [fromSettlement] at hok
  split at hok
  · cases hok
  · next t hfilter =>
    obtain ⟨htxid, hlen⟩ := Option.filter_eq_some_iff.1 hfilter
    split at hok
    · cases hok
    · split at hok
      · cases hok
      · next hmem => exact ⟨t, htxid, of_decide_eq_true hlen, not_not.1 hmem⟩

/-- The steps of the script, once the id is found in the block. -/
theorem fromSettlement_eq_ok_iff {out : ℕ × String} (hlen : t.length = 64) (hmem : t ∈ block.tx) :
    fromSettlement sha256 hexEncode hexDecode tryFromIntError files (some t) block height =
        .ok out ↔
      (∃ lines, anchorTxids sha256 hexEncode hexDecode files block.tx = .ok lines ∧
        computedRoot lines = some block.merkleroot) ∧
      (∃ lines, proveTxids sha256 hexEncode hexDecode files block.tx (block.tx.idxOf t) =
        .ok (out.2, lines)) ∧
      (∃ lines, cmdVerify sha256 hexDecode tryFromIntError (fun _ => .ok out.2)
        files.bundleFromStr "settlement_inclusion.json" = .ok lines) ∧
      out.1 = block.tx.idxOf t := by
  have hledger : (some t).filter (fun t => t.length = 64) = some t := by
    rw [Option.filter_some, if_pos (decide_eq_true hlen)]
  rw [fromSettlement, hledger]
  simp only [if_neg (List.ne_nil_of_mem hmem), not_not.2 hmem, if_false, bind_runVaa_eq_ok_iff]
  constructor
  · rintro ⟨lines, hanchor, hrest⟩
    split at hrest
    · cases hrest
    · next hroot =>
      simp only [bind_runVaa_eq_ok_iff] at hrest
      obtain ⟨⟨pretty, lines'⟩, hprove, _, hverify, ⟨⟩⟩ := hrest
      exact ⟨⟨lines, hanchor, not_not.1 hroot⟩, ⟨lines', hprove⟩, ⟨_, hverify⟩, rfl⟩
  · rintro ⟨⟨lines, hanchor, hroot⟩, ⟨lines', hprove⟩, ⟨_, hverify⟩, heq⟩
    refine ⟨lines, hanchor, ?_⟩
    rw [if_neg (not_not.2 hroot)]
    simp only [bind_runVaa_eq_ok_iff]
    exact ⟨_, hprove, _, hverify, congrArg Except.ok (Prod.ext heq.symm rfl)⟩

/-- A settlement ends well exactly when its id is one of a verified block, at an index
    that fits 32 bits. The root of its bundle plays no part. -/
theorem from_settlement_iff (sha256 : Bytes → Hash) (hexEncode : Bytes → String)
    (hexDecode : String → Except String Bytes) (tryFromIntError : String) (files : Files)
    (txid : Option String) (block : Block) (height : ℕ) (hhex : HexCrate hexEncode hexDecode)
    (hleavesFile : files.leavesFromStr (files.dumpLeaves { leavesDisplayBe := block.tx }) =
      .ok { leavesDisplayBe := block.tx })
    (hrecordsFile : files.recordsFromStr (files.dumpRecords { recordsHex := block.tx }) =
      .ok { recordsHex := block.tx })
    (hpretty : ∀ leaves i record, block.HasTree sha256 hexEncode hexDecode leaves →
      (displayBytes leaves)[i]? = some record → ∃ pretty,
        files.toStringPretty (bundleOf sha256 hexEncode (displayBytes leaves) i record) =
          .ok pretty ∧
        files.bundleFromStr pretty =
          .ok (bundleOf sha256 hexEncode (displayBytes leaves) i record)) :
    (∃ out, fromSettlement sha256 hexEncode hexDecode tryFromIntError files txid block height =
        .ok out) ↔
      ∃ t leaves, txid = some t ∧ t.length = 64 ∧ t ∈ block.tx ∧ block.tx.idxOf t < 2 ^ 32 ∧
        block.HasTree sha256 hexEncode hexDecode leaves := by
  -- The root that the script reads from the lines is the one of the header.
  have hanchor (leaves : List Hash) (htree : block.HasTree sha256 hexEncode hexDecode leaves) :
      ∃ lines, anchorTxids sha256 hexEncode hexDecode files block.tx = .ok lines ∧
        computedRoot lines = some block.merkleroot := by
    refine ⟨_, (anchorTxids_eq_ok_iff hleavesFile).2 ⟨leaves, htree.ne_nil, htree.reads, rfl⟩, ?_⟩
    rw [computedRoot_anchored hhex, htree.merkleroot_eq]
  -- The ids are loaded again as records, and the file written is the bundle of one of them.
  have hwritten (leaves : List Hash) (htree : block.HasTree sha256 hexEncode hexDecode leaves)
      {t : String} (hmem : t ∈ block.tx) : ∃ record pretty lines,
      (displayBytes leaves)[block.tx.idxOf t]? = some record ∧
      proveTxids sha256 hexEncode hexDecode files block.tx (block.tx.idxOf t) =
        .ok (pretty, lines) ∧
      cmdVerify sha256 hexDecode tryFromIntError (fun _ => .ok pretty) files.bundleFromStr
        "settlement_inclusion.json" = verifyBundle sha256 hexDecode tryFromIntError
          (bundleOf sha256 hexEncode (displayBytes leaves) (block.tx.idxOf t) record) := by
    have hlt : block.tx.idxOf t < (displayBytes leaves).length := by
      rw [displayBytes, List.length_map, ← htree.reads.length_eq]
      exact List.idxOf_lt_length_of_mem hmem
    have hrecord := List.getElem?_eq_getElem hlt
    obtain ⟨pretty, hto, hfrom⟩ := hpretty leaves _ _ htree hrecord
    obtain ⟨lines, hprove⟩ := proveTxids_of_pretty hexEncode hrecordsFile htree.reads hrecord hto
    exact ⟨_, pretty, lines, hrecord, hprove, cmdVerify_eq rfl hfrom⟩
  constructor
  · rintro ⟨out, hout⟩
    obtain ⟨t, rfl, hlen, hmem⟩ := exists_mem_of_fromSettlement hout
    obtain ⟨⟨lines, hlines, hcomputed⟩, ⟨_, hprove⟩, ⟨_, hverify⟩, -⟩ :=
      (fromSettlement_eq_ok_iff hlen hmem).1 hout
    obtain ⟨leaves, hne, hreads, rfl⟩ := (anchorTxids_eq_ok_iff hleavesFile).1 hlines
    rw [computedRoot_anchored hhex, Option.some.injEq] at hcomputed
    have htree : block.HasTree sha256 hexEncode hexDecode leaves := ⟨hne, hreads, hcomputed.symm⟩
    obtain ⟨record, pretty, _, -, hprove', heq⟩ := hwritten leaves htree hmem
    obtain ⟨rfl, -⟩ := Prod.mk.inj (Except.ok.inj (hprove.symm.trans hprove'))
    obtain ⟨-, hindex, -⟩ := verifyBundle_ok_iff.1 ⟨_, heq.symm.trans hverify⟩
    exact ⟨t, leaves, rfl, hlen, hmem, hindex, htree⟩
  · rintro ⟨t, leaves, rfl, hlen, hmem, hindex, htree⟩
    obtain ⟨record, pretty, lines, hrecord, hprove, heq⟩ := hwritten leaves htree hmem
    obtain ⟨verified, hverify⟩ : ∃ verified, verifyBundle sha256 hexDecode tryFromIntError
        (bundleOf sha256 hexEncode (displayBytes leaves) (block.tx.idxOf t) record) =
        .ok verified :=
      verifyBundle_bundleOf hhex.codec hrecord hindex tryFromIntError
    exact ⟨(block.tx.idxOf t, pretty), (fromSettlement_eq_ok_iff hlen hmem).2
      ⟨hanchor leaves htree, ⟨lines, hprove⟩, ⟨verified, heq.trans hverify⟩, rfl⟩⟩

theorem bundleOf_genesis : bundleOf Sha256.digest Hex.encode (displayBytes [genesisLeaf]) 0
    genesisLeaf.toList.reverse = genesisBundle := by
  decide +kernel

theorem from_settlement_iff_genesis :
    (∃ out, fromSettlement Sha256.digest Hex.encode Hex.decode outOfRange genesisFiles
        (some genesisTxid) genesisBlock 0 = .ok out) ↔
      ∃ t leaves, some genesisTxid = some t ∧ t.length = 64 ∧ t ∈ genesisBlock.tx ∧
        genesisBlock.tx.idxOf t < 2 ^ 32 ∧
        genesisBlock.HasTree Sha256.digest Hex.encode Hex.decode leaves := by
  refine from_settlement_iff Sha256.digest Hex.encode Hex.decode outOfRange genesisFiles
    (some genesisTxid) genesisBlock 0 Hex.hexCrate leavesFromStr_genesis recordsFromStr_genesis
    fun leaves i record htree hrecord => ?_
  obtain ⟨leaf, rest, hleaf, hrest, rfl⟩ := List.forall₂_cons_left_iff.1 htree.reads
  obtain ⟨genesis, _, hgenesis, -, heq⟩ := List.forall₂_cons_left_iff.1 forall₂_genesis
  obtain ⟨rfl, -⟩ := List.cons.inj heq
  obtain rfl := Except.ok.inj (hleaf.symm.trans hgenesis)
  obtain rfl := List.forall₂_nil_left_iff.1 hrest
  obtain ⟨hi, rfl⟩ := List.getElem?_eq_some_iff.1 hrecord
  obtain rfl : i = 0 := Nat.lt_one_iff.1 hi
  refine ⟨prettyBundle genesisBundle, ?_, ?_⟩
  · exact congrArg genesisFiles.toStringPretty bundleOf_genesis
  · exact bundleFromStr_genesis.trans (congrArg Except.ok bundleOf_genesis.symm)

end Settlements

/-! ## Synthetic records -/

section Synthetic

theorem syntheticRecord_eq (i : ℕ) : syntheticRecord i =
    ([0x7b] ++ Json.string "counterparty" ++ [0x3a] ++
      (Json.string s!"counterparty-{twoDigits (i % 12)}" ++
        ([0x2c] ++ Json.string "id" ++ [0x3a] ++ (Json.number i ++ [0x2c])))) ++
      (Json.string "kind" ++ [0x3a] ++
        Json.string (if i % 2 = 0 then "invoice" else "receipt") ++ [0x2c] ++
        Json.string "value" ++ [0x3a] ++ Json.number (1000000 + i * 137 % 9000000) ++ [0x7d]) := by
  simp [syntheticRecord, Json.object, List.intercalate]

/-- Different synthetic records have different bytes: those of their ids. -/
theorem syntheticRecord_injective : Function.Injective syntheticRecord := by
  have hnumber : SelfDelimiting fun n => Json.number n ++ [0x2c] :=
    Json.selfDelimiting_number (by decide)
  -- The counterparty delimits itself, and so does the id after it, by the comma.
  have hcode := (Json.selfDelimiting_string.append
    (hnumber.prepend ([0x2c] ++ Json.string "id" ++ [0x3a]))).prepend
      ([0x7b] ++ Json.string "counterparty" ++ [0x3a])
  intro i j heq
  rw [syntheticRecord_eq, syntheticRecord_eq] at heq
  have hfields := (@hcode (s!"counterparty-{twoDigits (i % 12)}", i)
    (s!"counterparty-{twoDigits (j % 12)}", j) _ _ heq).1
  exact (Prod.mk.inj hfields).2

variable {sha256 : Bytes → Hash} {hexEncode : Bytes → String}
  {hexDecode : String → Except String Bytes} {tryFromIntError : String} {files : Files}
  {n index : ℕ}

theorem length_syntheticRecords (n : ℕ) : (syntheticRecords n).length = n := by
  rw [syntheticRecords, List.length_map, List.length_range]

theorem getElem?_syntheticRecords (hindex : index < n) :
    (syntheticRecords n)[index]? = some (syntheticRecord index) := by
  rw [syntheticRecords, List.getElem?_map, List.getElem?_range hindex, Option.map_some]

/-- The steps of the script, for an index in the list. -/
theorem anchorRecords_eq_ok_iff {out : List String × String} (hindex : index < n) :
    anchorRecords sha256 hexEncode hexDecode tryFromIntError files n index = .ok out ↔
      anchorTxids sha256 hexEncode hexDecode files
        ((leavesOf sha256 (syntheticRecords n)).map (internalToDisplay hexEncode)) = .ok out.1 ∧
      (∃ lines, cmdProve sha256 hexEncode hexDecode
        (fun _ => .ok (files.dumpRecords { recordsHex := (syntheticRecords n).map hexEncode }))
        files.recordsFromStr files.toStringPretty (fun _ _ => .ok ()) "records.json" index
        "bundle.json" = .ok (out.2, lines)) ∧
      ∃ lines, cmdVerify sha256 hexDecode tryFromIntError (fun _ => .ok out.2)
        files.bundleFromStr "bundle.json" = .ok lines := by
  simp only [anchorRecords, bind_runVaa_eq_ok_iff, length_syntheticRecords,
    if_neg (Nat.not_le.2 hindex)]
  constructor
  · rintro ⟨lines, hanchor, ⟨pretty, lines'⟩, hprove, _, hverify, ⟨⟩⟩
    exact ⟨hanchor, ⟨lines', hprove⟩, _, hverify⟩
  · rintro ⟨hanchor, ⟨lines', hprove⟩, _, hverify⟩
    exact ⟨out.1, hanchor, _, hprove, _, hverify, rfl⟩

/-- The script stops at an index that is not in the list. -/
theorem lt_of_anchorRecords {out : List String × String}
    (hok : anchorRecords sha256 hexEncode hexDecode tryFromIntError files n index = .ok out) :
    index < n := by
  by_contra hindex
  simp only [anchorRecords, bind_runVaa_eq_ok_iff, length_syntheticRecords,
    if_pos (Nat.not_lt.1 hindex)] at hok
  obtain ⟨_, -, ⟨⟩⟩ := hok

/-- Records written in hexadecimal are read back. -/
theorem forall₂_hexEncode (hhex : HexCodec hexEncode hexDecode) (records : List Bytes) :
    List.Forall₂ (fun s record => hexDecode (trim s) = .ok record) (records.map hexEncode)
      records := by
  rw [List.forall₂_map_left_iff, List.forall₂_same]
  intro record _
  rw [hhex.trim_encode, hhex.decode_encode]

/-- The bundle of a record of the list is written. -/
theorem exists_prove_synthetic {record : Bytes} {pretty : String}
    (hhex : HexCodec hexEncode hexDecode)
    (hfile : files.recordsFromStr (files.dumpRecords
      { recordsHex := (syntheticRecords n).map hexEncode }) =
      .ok { recordsHex := (syntheticRecords n).map hexEncode })
    (hrecord : (syntheticRecords n)[index]? = some record)
    (hpretty : files.toStringPretty
      (bundleOf sha256 hexEncode (syntheticRecords n) index record) = .ok pretty) :
    ∃ lines, cmdProve sha256 hexEncode hexDecode
      (fun _ => .ok (files.dumpRecords { recordsHex := (syntheticRecords n).map hexEncode }))
      files.recordsFromStr files.toStringPretty (fun _ _ => .ok ()) "records.json" index
      "bundle.json" = .ok (pretty, lines) := by
  have hload : loadRecords sha256 hexDecode
      (fun _ => .ok (files.dumpRecords { recordsHex := (syntheticRecords n).map hexEncode }))
      files.recordsFromStr "records.json" =
      .ok (syntheticRecords n, leavesOf sha256 (syntheticRecords n)) :=
    loadRecords_of_decode rfl hfile (forall₂_hexEncode hhex _)
  simp only [cmdProve, Result.bind_eq_ok_iff, Result.context_eq_ok_iff, Result.foreign_eq_ok_iff]
  exact ⟨_, _, hload, _, proveBundle_eq sha256 hexEncode hrecord, _, hpretty, (), trivial, rfl⟩

/-- The script reads the root of the list from the lines of `vaa anchor`. -/
theorem exists_anchor_synthetic (hhex : HexCrate hexEncode hexDecode) (hn : 0 < n)
    (hfile : ∀ file, file.leavesDisplayBe =
      (leavesOf sha256 (syntheticRecords n)).map (internalToDisplay hexEncode) →
      files.leavesFromStr (files.dumpLeaves file) = .ok file) :
    ∃ lines, anchorTxids sha256 hexEncode hexDecode files
      ((leavesOf sha256 (syntheticRecords n)).map (internalToDisplay hexEncode)) = .ok lines ∧
      computedRoot lines = some (internalToDisplay hexEncode
        (rootOf (Merkle.hashPair sha256) (leavesOf sha256 (syntheticRecords n)))) := by
  have hne : leavesOf sha256 (syntheticRecords n) ≠ [] := by
    refine leavesOf_ne_nil (List.ne_nil_of_length_pos ?_)
    rwa [length_syntheticRecords]
  exact computedRoot_anchorTxids sha256 hhex (by simpa using hne) (hfile _ rfl)
    (forall₂_internalToDisplay hhex.codec _)

/-- The records are anchored and one of them proved exactly when its index is in the list
    and fits 32 bits. The root printed is the one of the bundle, which discloses the
    record at the index and no other. -/
theorem anchor_records_iff (sha256 : Bytes → Hash) (hexEncode : Bytes → String)
    (hexDecode : String → Except String Bytes) (tryFromIntError : String) (files : Files)
    (n index : ℕ) (pretty : String) (hhex : HexCrate hexEncode hexDecode)
    (hleavesFile : ∀ file, file.leavesDisplayBe =
      (leavesOf sha256 (syntheticRecords n)).map (internalToDisplay hexEncode) →
      files.leavesFromStr (files.dumpLeaves file) = .ok file)
    (hrecordsFile : ∀ file, file.recordsHex = (syntheticRecords n).map hexEncode →
      files.recordsFromStr (files.dumpRecords file) = .ok file)
    (hpretty : files.toStringPretty
      (bundleOf sha256 hexEncode (syntheticRecords n) index (syntheticRecord index)) = .ok pretty)
    (hparse : files.bundleFromStr pretty =
      .ok (bundleOf sha256 hexEncode (syntheticRecords n) index (syntheticRecord index))) :
    ((∃ out, anchorRecords sha256 hexEncode hexDecode tryFromIntError files n index = .ok out) ↔
      index < n ∧ index < 2 ^ 32) ∧
    ∀ lines text,
      anchorRecords sha256 hexEncode hexDecode tryFromIntError files n index = .ok (lines, text) →
      ∃ bundle, files.bundleFromStr text = .ok bundle ∧
        computedRoot lines = some bundle.rootDisplayBe ∧
        ∀ i, hexDecode (trim bundle.disclosedRecordHex) = .ok (syntheticRecord i) ↔ i = index := by
  have hverify : cmdVerify sha256 hexDecode tryFromIntError (fun _ => .ok pretty)
      files.bundleFromStr "bundle.json" = verifyBundle sha256 hexDecode tryFromIntError
        (bundleOf sha256 hexEncode (syntheticRecords n) index (syntheticRecord index)) :=
    cmdVerify_eq rfl hparse
  have hprove (hindex : index < n) := exists_prove_synthetic hhex.codec (hrecordsFile _ rfl)
    (getElem?_syntheticRecords hindex) hpretty
  have hanchor (hindex : index < n) := exists_anchor_synthetic hhex (Nat.zero_lt_of_lt hindex)
    hleavesFile
  refine ⟨⟨?_, ?_⟩, ?_⟩
  · rintro ⟨out, hout⟩
    have hindex := lt_of_anchorRecords hout
    obtain ⟨-, ⟨_, hprove'⟩, _, hverified⟩ := (anchorRecords_eq_ok_iff hindex).1 hout
    obtain ⟨lines, hprove⟩ := hprove hindex
    obtain ⟨hpretty', -⟩ := Prod.mk.inj (Except.ok.inj (hprove'.symm.trans hprove))
    rw [hpretty', hverify] at hverified
    obtain ⟨-, hfits, -⟩ := verifyBundle_ok_iff.1 ⟨_, hverified⟩
    exact ⟨hindex, hfits⟩
  · rintro ⟨hindex, hfits⟩
    obtain ⟨lines, hlines, -⟩ := hanchor hindex
    obtain ⟨verified, hverified⟩ : ∃ verified, verifyBundle sha256 hexDecode tryFromIntError
        (bundleOf sha256 hexEncode (syntheticRecords n) index (syntheticRecord index)) =
        .ok verified :=
      verifyBundle_bundleOf hhex.codec (getElem?_syntheticRecords hindex) hfits tryFromIntError
    exact ⟨(lines, pretty), (anchorRecords_eq_ok_iff hindex).2
      ⟨hlines, hprove hindex, verified, hverify.trans hverified⟩⟩
  · intro lines text hout
    have hindex := lt_of_anchorRecords hout
    obtain ⟨hlines, ⟨_, hprove'⟩, -⟩ := (anchorRecords_eq_ok_iff hindex).1 hout
    obtain ⟨_, hprove⟩ := hprove hindex
    obtain ⟨rfl, -⟩ := Prod.mk.inj (Except.ok.inj (hprove'.symm.trans hprove))
    obtain ⟨lines', hlines', hcomputed⟩ := hanchor hindex
    obtain rfl := Except.ok.inj (hlines.symm.trans hlines')
    refine ⟨_, hparse, hcomputed, fun i => ?_⟩
    rw [bundleOf, hhex.codec.trim_encode, hhex.codec.decode_encode, Except.ok.injEq,
      syntheticRecord_injective.eq_iff, eq_comm]

/-- The bundle of the second of two records. -/
def secondBundle : ProofBundle :=
  bundleOf Sha256.digest Hex.encode (syntheticRecords 2) 1 (syntheticRecord 1)

/-- The JSON of the files, on the two records. -/
def secondFiles : Files :=
  knownFiles
    [{ leavesDisplayBe :=
        (leavesOf Sha256.digest (syntheticRecords 2)).map (internalToDisplay Hex.encode) }]
    { recordsHex := (syntheticRecords 2).map Hex.encode } secondBundle

theorem anchor_records_iff_second :
    ((∃ out, anchorRecords Sha256.digest Hex.encode Hex.decode outOfRange secondFiles 2 1 =
        .ok out) ↔
      1 < 2 ∧ 1 < 2 ^ 32) ∧
    ∀ lines text,
      anchorRecords Sha256.digest Hex.encode Hex.decode outOfRange secondFiles 2 1 =
        .ok (lines, text) →
      ∃ bundle, secondFiles.bundleFromStr text = .ok bundle ∧
        computedRoot lines = some bundle.rootDisplayBe ∧
        ∀ i, Hex.decode (trim bundle.disclosedRecordHex) = .ok (syntheticRecord i) ↔ i = 1 := by
  refine anchor_records_iff Sha256.digest Hex.encode Hex.decode outOfRange secondFiles 2 1
    (prettyBundle secondBundle) Hex.hexCrate ?_ ?_ (toStringPretty_known secondBundle)
    bundleFromStr_known
  · rintro ⟨leavesDisplayBe⟩ rfl
    exact leavesFromStr_known List.mem_cons_self fun _ hb _ => List.mem_singleton.1 hb
  · rintro ⟨recordsHex⟩ rfl
    exact recordsFromStr_known

end Synthetic

end Vaa.Cli
