import Vaa.Cli.Anchor
import Vaa.Merkle.Binding
import Mathlib.Data.List.DropRight

/-!
# Settlements

The script `bridge.py` takes the transaction ids of a block to `vaa anchor`, as leaves in
display order, and compares the root printed with the one of the block header; it then
gives the same list to `vaa prove`, as records, and has the bundle of the settlement
verified (`fromSettlement`).

A record is hashed to its leaf, an id in display order is the leaf: the two commands
build different trees. The bundle has the root of the header only if every transaction
id is, in reverse, its own hash (`settlement_root_iff`), up to a collision; the script
ends well all the same (`fromSettlement_eq_ok`).
-/

namespace Vaa.Cli

open PairTree Merkle ProofStore

/-! ## Python strings -/

/-- `str.isspace`, on one character: the separators of ASCII are spaces too. -/
def isSpace (c : Char) : Bool := isWhitespace c || (0x1c ≤ c.toNat && c.toNat ≤ 0x1f)

/-- `str.strip`. -/
def strip (s : String) : String :=
  String.ofList ((s.toList.dropWhile isSpace).rdropWhile isSpace)

/-- `s.split(":", 1)[1]`, for a string with a colon. -/
def afterColon (s : String) : String := String.ofList (s.toList.dropWhile (· ≠ ':')).tail

/-! ## The script -/

/-- The fields read of a block of the explorer. -/
structure Block where
  tx : List String
  merkleroot : String
  deriving DecidableEq, Repr

/-- The JSON of the files, as `json.dumps` writes and `serde_json` reads it. -/
structure Files where
  dumpLeaves : LeavesFile → String
  leavesFromStr : String → Except String LeavesFile
  dumpRecords : RecordsFile → String
  recordsFromStr : String → Except String RecordsFile
  toStringPretty : ProofBundle → Except String String
  bundleFromStr : String → Except String ProofBundle

/-- The status `vaa` exits with on a failure: a panic aborts it. -/
def exitStatus (fault : Fault AnyhowError) : ℤ :=
  match fault with
  | .err _ => 1
  | .panicked => -6

/-- `run_vaa`: a failed command ends the script, with the text of its `SystemExit`. -/
def runVaa {α : Type} (command : String) (x : Result AnyhowError α) : Except String α :=
  match x with
  | .ok a => .ok a
  | .error fault => .error s!"vaa {command} failed (exit {exitStatus fault})"

/-- The loop looking for `computed_root` in the lines of `vaa anchor`. -/
def computedRoot (out : List String) : Option String :=
  ((out.map strip).find? fun s => "root (display)".toList.isPrefixOf s.toList).map fun s =>
    strip (afterColon s)

/-- `SETTLEMENT_LEDGER_SCHEMA`. -/
def settlementLedgerSchema : String :=
  "\nA JSON object with at minimum:\n\n  \x7b\n" ++
    "    \"settlement_id\": \"<string>\",\n" ++
    "    \"settlement_txid_display_be\": \"<64-char big-endian hex>\",\n" ++
    "    \"parties\": [\"<party>\", ...],            // optional, informational\n" ++
    "    \"balances_minor_units\": \x7b ... \x7d         // optional, informational\n  \x7d\n"

/-- `str(value)`, of a string or a missing one. -/
def strOf (s : Option String) : String := s.getD "None"

section Script

variable (sha256 : Bytes → Hash) (hexEncode : Bytes → String)
  (hexDecode : String → Except String Bytes) (tryFromIntError : String) (files : Files)

/-- `vaa anchor` on the transaction ids of a block, written as leaves. -/
def anchorTxids (txids : List String) : Result AnyhowError (List String) :=
  cmdAnchor sha256 hexEncode hexDecode
    (fun _ => .ok (files.dumpLeaves { leavesDisplayBe := txids })) files.leavesFromStr
    "leaves.json"

/-- `vaa prove` on the transaction ids of a block, written as records. -/
def proveTxids (txids : List String) (index : ℕ) : Result AnyhowError (String × List String) :=
  cmdProve sha256 hexEncode hexDecode
    (fun _ => .ok (files.dumpRecords { recordsHex := txids })) files.recordsFromStr
    files.toStringPretty (fun _ _ => .ok ()) "records.json" index "settlement_inclusion.json"

/-- `cmd_from_settlement`, from the transaction id in the ledger (none if it is missing)
    and the block fetched: the index of the settlement, and the bundle written. -/
def fromSettlement (txid : Option String) (block : Block) (height : ℕ) :
    Except String (ℕ × String) := do
  match txid.filter fun txid => txid.length = 64 with
  | none =>
    .error ("ledger is missing 'settlement_txid_display_be' (a 64-char big-endian hex string)." ++
      "\n\nExpected schema:" ++ settlementLedgerSchema)
  | some txid =>
    if block.tx = [] then
      .error "BSV API returned no tx list (block may be pruned at this endpoint)"
    else if txid ∉ block.tx then
      .error (s!"settlement txid {txid} not found in block {height} " ++
        s!"({block.tx.length} txs). The ledger's block_height may be wrong.")
    else
      let leafIndex := block.tx.idxOf txid
      let out ← runVaa "anchor" (anchorTxids sha256 hexEncode hexDecode files block.tx)
      if computedRoot out ≠ some block.merkleroot then
        .error (s!"merkleroot mismatch:\n  computed : {strOf (computedRoot out)}\n" ++
          s!"  header   : {block.merkleroot}")
      else
        let (bundle, _) ←
          runVaa "prove" (proveTxids sha256 hexEncode hexDecode files block.tx leafIndex)
        let _out ← runVaa "verify" (cmdVerify sha256 hexDecode tryFromIntError
          (fun _ => .ok bundle) files.bundleFromStr "settlement_inclusion.json")
        return (leafIndex, bundle)

end Script

/-! ## The root printed -/

theorem toList_strip (s : String) :
    (strip s).toList = (s.toList.dropWhile isSpace).rdropWhile isSpace := by
  rw [strip, String.toList_ofList]

/-- A string that neither starts nor ends with a space is not stripped. -/
theorem strip_eq_self {s : String} (hhead : ∀ c ∈ s.toList.head?, isSpace c = false)
    (hlast : ∀ c ∈ s.toList.getLast?, isSpace c = false) : strip s = s := by
  have hdrop : s.toList.dropWhile isSpace = s.toList := by
    cases hs : s.toList with
    | nil => rfl
    | cons c cs =>
      rw [hs] at hhead
      rw [List.dropWhile_cons_of_neg (by simp [hhead c rfl])]
  have hrdrop : s.toList.rdropWhile isSpace = s.toList := by
    rw [List.rdropWhile_eq_self_iff]
    intro hne
    simp [hlast _ (List.getLast?_eq_some_getLast hne)]
  rw [strip, hdrop, hrdrop, String.ofList_toList]

/-- The root is read from the second line, if it is not empty and has no spaces. -/
theorem computedRoot_lines {n : ℕ} {root internal : String} (hne : root.toList ≠ [])
    (hroot : ∀ c ∈ root.toList, isSpace c = false) :
    computedRoot [s!"leaves          : {n}", s!"root (display)  : {root}", internal] =
      some root := by
  have hcount : "root (display)".toList.isPrefixOf (strip s!"leaves          : {n}").toList =
      false := by
    by_contra hprefix
    rw [Bool.not_eq_false, List.isPrefixOf_iff_prefix, toList_strip] at hprefix
    have hline := hprefix.trans (List.rdropWhile_prefix isSpace _)
    -- The line starts with another letter.
    rw [String.toList_append] at hline
    exact absurd (List.cons_prefix_cons.1 hline).1 (by decide)
  have hhead (c : Char) (hc : c ∈ root.toList.head?) : isSpace c = false :=
    hroot c (List.mem_of_head? hc)
  have hlast (c : Char) (hc : c ∈ root.toList.getLast?) : isSpace c = false :=
    hroot c (List.mem_of_getLast? hc)
  have hline : (s!"root (display)  : {root}").toList =
      "root (display)  ".toList ++ ':' :: ' ' :: root.toList := by
    rw [String.toList_append]
    rfl
  have hstrip : strip s!"root (display)  : {root}" = s!"root (display)  : {root}" := by
    refine strip_eq_self ?_ ?_
    · rw [hline]
      rintro c ⟨⟩
      rfl
    · obtain ⟨c, cs, hroot⟩ := List.exists_cons_of_ne_nil hne
      rw [hline, List.getLast?_append_of_ne_nil _ (List.cons_ne_nil _ _), hroot,
        List.getLast?_cons_cons, List.getLast?_cons_cons, ← hroot]
      exact hlast
  have hafter : strip (afterColon s!"root (display)  : {root}") = root := by
    have hcolon : afterColon s!"root (display)  : {root}" = String.ofList (' ' :: root.toList) := by
      rw [afterColon, hline]
      rfl
    have hblank : strip (String.ofList (' ' :: root.toList)) = strip root := by
      rw [strip, String.toList_ofList]
      rfl
    rw [hcolon, hblank, strip_eq_self hhead hlast]
  have hprefix : "root (display)".toList.isPrefixOf (s!"root (display)  : {root}").toList =
      true := by
    rw [hline]
    rfl
  rw [computedRoot, List.map_cons, List.map_cons, List.find?_cons, hcount, List.find?_cons,
    hstrip, hprefix]
  exact congrArg some hafter

/-! ## The two trees -/

/-- A transaction id: 64 digits. -/
def IsTxid (t : String) : Prop := t.length = 64 ∧ ∀ c ∈ t.toList, (Hex.value c).isSome

instance (t : String) : Decidable (IsTxid t) := inferInstanceAs (Decidable (_ ∧ _))

/-- The bytes of a transaction id, as written, hash to the id in internal order. -/
def OwnHash (sha256 : Bytes → Hash) (hexDecode : String → Except String Bytes) (t : String) :
    Prop :=
  ∃ h, displayToInternal hexDecode t = .ok h ∧ Bsv.doubleSha256 sha256 h.toList.reverse = h

/-- The bytes of hashes in display order: the records of transaction ids. -/
def displayBytes (leaves : List Hash) : List Bytes := leaves.map fun leaf => leaf.toList.reverse

section Txids

variable {sha256 : Bytes → Hash} {hexEncode : Bytes → String}
  {hexDecode : String → Except String Bytes} {files : Files} {txids : List String}
  {leaves : List Hash}

/-- A digit is not a space. -/
theorem isSpace_of_value {c : Char} (hc : (Hex.value c).isSome) : isSpace c = false := by
  have htable : ∀ m < 128, (Hex.value (Char.ofNat m)).isSome →
      isSpace (Char.ofNat m) = false := by
    decide
  obtain ⟨n, hn⟩ := Option.isSome_iff_exists.1 hc
  have hofNat := htable c.toNat (Hex.toNat_lt_of_value hn)
  rw [Char.ofNat_toNat] at hofNat
  exact hofNat hc

theorem IsTxid.isSpace {t : String} (ht : IsTxid t) : ∀ c ∈ t.toList, isSpace c = false :=
  fun c hc => isSpace_of_value (ht.2 c hc)

theorem IsTxid.trim_eq {t : String} (ht : IsTxid t) : trim t = t :=
  trim_eq_self fun c hc => (Bool.or_eq_false_iff.1 (ht.isSpace c hc)).1

theorem IsTxid.ne_nil {t : String} (ht : IsTxid t) : t.toList ≠ [] := by
  rw [← List.length_pos_iff, String.length_toList, ht.1]
  decide

/-- A hash on display is written as a transaction id. -/
theorem isTxid_internalToDisplay (hhex : HexCrate hexEncode hexDecode) (h : Hash) :
    IsTxid (internalToDisplay hexEncode h) := by
  have hread := (exists_displayToInternal_iff hhex (internalToDisplay hexEncode h)).1
    ⟨h, displayToInternal_internalToDisplay hhex.codec h⟩
  rwa [internalToDisplay, hhex.codec.trim_encode] at hread

/-- A transaction id is read as a hash. -/
theorem IsTxid.exists_leaf (hhex : HexCrate hexEncode hexDecode) {t : String} (ht : IsTxid t) :
    ∃ leaf, displayToInternal hexDecode t = .ok leaf := by
  rw [exists_displayToInternal_iff hhex, ht.trim_eq]
  exact ht

theorem exists_leaves (hhex : HexCrate hexEncode hexDecode) (htx : ∀ t ∈ txids, IsTxid t) :
    ∃ leaves, List.Forall₂ (fun t leaf => displayToInternal hexDecode t = .ok leaf) txids
      leaves := by
  induction txids with
  | nil => exact ⟨[], .nil⟩
  | cons t txids ih =>
    obtain ⟨leaf, hleaf⟩ := (htx t List.mem_cons_self).exists_leaf hhex
    obtain ⟨leaves, hleaves⟩ := ih fun t ht => htx t (List.mem_cons_of_mem _ ht)
    exact ⟨leaf :: leaves, .cons hleaf hleaves⟩

/-- Leaves written in display order are read back. -/
theorem forall₂_internalToDisplay (hhex : HexCodec hexEncode hexDecode) (leaves : List Hash) :
    List.Forall₂ (fun t leaf => displayToInternal hexDecode t = .ok leaf)
      (leaves.map (internalToDisplay hexEncode)) leaves := by
  rw [List.forall₂_map_left_iff, List.forall₂_same]
  exact fun leaf _ => displayToInternal_internalToDisplay hhex leaf

theorem leaves_ne_nil (hne : txids ≠ [])
    (hleaves : List.Forall₂ (fun t leaf => displayToInternal hexDecode t = .ok leaf) txids
      leaves) : leaves ≠ [] := by
  rintro rfl
  exact hne (List.forall₂_nil_right_iff.1 hleaves)

/-- Read as records, transaction ids are the bytes of their hashes in display order. -/
theorem forall₂_displayBytes
    (hleaves : List.Forall₂ (fun t leaf => displayToInternal hexDecode t = .ok leaf) txids
      leaves) :
    List.Forall₂ (fun t record => hexDecode (trim t) = .ok record) txids
      (displayBytes leaves) := by
  rw [displayBytes, List.forall₂_map_right_iff]
  exact hleaves.imp fun t leaf hleaf => displayToInternal_eq_ok_iff.1 hleaf

/-- The two trees have the same leaves exactly when every transaction id is its own hash. -/
theorem leavesOf_displayBytes_eq_iff
    (hleaves : List.Forall₂ (fun t leaf => displayToInternal hexDecode t = .ok leaf) txids
      leaves) :
    leavesOf sha256 (displayBytes leaves) = leaves ↔ ∀ t ∈ txids, OwnHash sha256 hexDecode t := by
  induction hleaves with
  | nil => simp [leavesOf, displayBytes]
  | @cons t leaf txids leaves hleaf _ ih =>
    have hown : OwnHash sha256 hexDecode t ↔
        Bsv.doubleSha256 sha256 leaf.toList.reverse = leaf := by
      constructor
      · rintro ⟨h, hread, hhash⟩
        obtain rfl : h = leaf := Except.ok.inj (hread.symm.trans hleaf)
        exact hhash
      · exact fun hhash => ⟨leaf, hleaf, hhash⟩
    rw [List.forall_mem_cons, hown, ← ih]
    exact List.cons_eq_cons

/-- The tree of the bundle and that of the block have one root exactly when every
    transaction id is its own hash, up to a collision. -/
theorem rootOf_displayBytes (hne : txids ≠ [])
    (hleaves : List.Forall₂ (fun t leaf => displayToInternal hexDecode t = .ok leaf) txids
      leaves) :
    ((∀ t ∈ txids, OwnHash sha256 hexDecode t) →
      rootOf (Merkle.hashPair sha256) (leavesOf sha256 (displayBytes leaves)) =
        rootOf (Merkle.hashPair sha256) leaves) ∧
    (rootOf (Merkle.hashPair sha256) (leavesOf sha256 (displayBytes leaves)) =
        rootOf (Merkle.hashPair sha256) leaves →
      (∀ t ∈ txids, OwnHash sha256 hexDecode t) ∨
        Collision (Merkle.hashPair sha256)
          (rootPairs (Merkle.hashPair sha256) (leavesOf sha256 (displayBytes leaves)))
          (rootPairs (Merkle.hashPair sha256) leaves)) := by
  have hlen : (leavesOf sha256 (displayBytes leaves)).length = leaves.length := by
    simp [leavesOf, displayBytes]
  have hne' : leaves ≠ [] := leaves_ne_nil hne hleaves
  have hne'' : leavesOf sha256 (displayBytes leaves) ≠ [] := by
    rw [← List.length_pos_iff, hlen]
    exact List.length_pos_iff.2 hne'
  rw [← leavesOf_displayBytes_eq_iff hleaves]
  refine ⟨fun heq => by rw [heq], fun hroots => ?_⟩
  have hheight := congrArg height hlen
  exact (expansion_eq_of_rootOf_eq hne'' hne' hheight hroots).imp_left
    (eq_of_expansion_eq hlen)

/-! ## The commands of the script -/

/-- Two hashes on display are equal when the hashes are. -/
theorem internalToDisplay_inj (hhex : HexCodec hexEncode hexDecode) {h h' : Hash} :
    internalToDisplay hexEncode h = internalToDisplay hexEncode h' ↔ h = h' := by
  constructor
  · intro heq
    have hread := displayToInternal_internalToDisplay hhex h
    rw [heq, displayToInternal_internalToDisplay hhex h'] at hread
    exact (Except.ok.inj hread).symm
  · exact congrArg _

/-- The root the script reads from `vaa anchor` is the one of the transaction ids, as
    leaves. -/
theorem computedRoot_anchorTxids (sha256 : Bytes → Hash) (hhex : HexCrate hexEncode hexDecode)
    (hne : txids ≠ [])
    (hfile : files.leavesFromStr (files.dumpLeaves { leavesDisplayBe := txids }) =
      .ok { leavesDisplayBe := txids })
    (hleaves : List.Forall₂ (fun t leaf => displayToInternal hexDecode t = .ok leaf) txids
      leaves) :
    ∃ out, anchorTxids sha256 hexEncode hexDecode files txids = .ok out ∧
      computedRoot out =
        some (internalToDisplay hexEncode (rootOf (Merkle.hashPair sha256) leaves)) := by
  have hload : loadLeaves hexDecode
      (fun _ => .ok (files.dumpLeaves { leavesDisplayBe := txids })) files.leavesFromStr
      "leaves.json" = .ok leaves := (loadLeaves_eq_ok_iff rfl hfile).2 hleaves
  have htxid := isTxid_internalToDisplay hhex (rootOf (Merkle.hashPair sha256) leaves)
  exact ⟨_, cmdAnchor_of_load hload (leaves_ne_nil hne hleaves),
    computedRoot_lines htxid.ne_nil htxid.isSpace⟩

/-- `vaa prove` writes the bundle of the transaction ids, as records. -/
theorem proveTxids_of_pretty (hexEncode : Bytes → String)
    (hfile : files.recordsFromStr (files.dumpRecords { recordsHex := txids }) =
      .ok { recordsHex := txids })
    (hleaves : List.Forall₂ (fun t leaf => displayToInternal hexDecode t = .ok leaf) txids
      leaves) {i : ℕ} {record : Bytes} (hrecord : (displayBytes leaves)[i]? = some record)
    {pretty : String}
    (hpretty : files.toStringPretty (bundleOf sha256 hexEncode (displayBytes leaves) i record) =
      .ok pretty) :
    ∃ lines, proveTxids sha256 hexEncode hexDecode files txids i = .ok (pretty, lines) := by
  have hload : loadRecords sha256 hexDecode
      (fun _ => .ok (files.dumpRecords { recordsHex := txids })) files.recordsFromStr
      "records.json" = .ok (displayBytes leaves, leavesOf sha256 (displayBytes leaves)) :=
    loadRecords_of_decode rfl hfile (forall₂_displayBytes hleaves)
  have hbundle := proveBundle_eq sha256 hexEncode hrecord
  simp only [proveTxids, cmdProve, Result.bind_eq_ok_iff, Result.context_eq_ok_iff,
    Result.foreign_eq_ok_iff]
  exact ⟨_, _, hload, _, hbundle, _, hpretty, (), trivial, rfl⟩

/-- The script ends well for every transaction id of a block whose root is the one of the
    header, and writes the bundle of the transaction ids as records. -/
theorem fromSettlement_eq_ok (hhex : HexCrate hexEncode hexDecode) {block : Block}
    (hleavesFile : files.leavesFromStr (files.dumpLeaves { leavesDisplayBe := block.tx }) =
      .ok { leavesDisplayBe := block.tx })
    (hrecordsFile : files.recordsFromStr (files.dumpRecords { recordsHex := block.tx }) =
      .ok { recordsHex := block.tx })
    (hpretty : ∀ bundle, ∃ pretty, files.toStringPretty bundle = .ok pretty ∧
      files.bundleFromStr pretty = .ok bundle)
    (htx : ∀ t ∈ block.tx, IsTxid t)
    (hleaves : List.Forall₂ (fun t leaf => displayToInternal hexDecode t = .ok leaf) block.tx
      leaves)
    (hheader : block.merkleroot =
      internalToDisplay hexEncode (rootOf (Merkle.hashPair sha256) leaves))
    {txid : String} (hmem : txid ∈ block.tx) (hindex : block.tx.idxOf txid < 2 ^ 32)
    (tryFromIntError : String) (height : ℕ) :
    ∃ record pretty, (displayBytes leaves)[block.tx.idxOf txid]? = some record ∧
      files.toStringPretty (bundleOf sha256 hexEncode (displayBytes leaves)
        (block.tx.idxOf txid) record) = .ok pretty ∧
      fromSettlement sha256 hexEncode hexDecode tryFromIntError files (some txid) block height =
        .ok (block.tx.idxOf txid, pretty) := by
  have hne : block.tx ≠ [] := List.ne_nil_of_mem hmem
  have hlt : block.tx.idxOf txid < (displayBytes leaves).length := by
    rw [displayBytes, List.length_map, ← hleaves.length_eq]
    exact List.idxOf_lt_length_of_mem hmem
  have hrecord := List.getElem?_eq_getElem hlt
  obtain ⟨pretty, hwritten, hread⟩ := hpretty (bundleOf sha256 hexEncode (displayBytes leaves)
    (block.tx.idxOf txid) (displayBytes leaves)[block.tx.idxOf txid])
  obtain ⟨out, hanchor, hcomputed⟩ :=
    computedRoot_anchorTxids sha256 hhex hne hleavesFile hleaves
  obtain ⟨lines, hprove⟩ := proveTxids_of_pretty hexEncode hrecordsFile hleaves hrecord hwritten
  have hverify : ∃ verified, verifyBundle sha256 hexDecode tryFromIntError
      (bundleOf sha256 hexEncode (displayBytes leaves) (block.tx.idxOf txid)
        (displayBytes leaves)[block.tx.idxOf txid]) = .ok verified :=
    verifyBundle_bundleOf hhex.codec hrecord hindex tryFromIntError
  obtain ⟨verified, hverify⟩ := hverify
  refine ⟨_, pretty, hrecord, hwritten, ?_⟩
  have hledger : (some txid).filter (fun txid => txid.length = 64) = some txid := by
    rw [Option.filter_some, if_pos (decide_eq_true (htx txid hmem).1)]
  have hcheck : cmdVerify sha256 hexDecode tryFromIntError (fun _ => .ok pretty)
      files.bundleFromStr "settlement_inclusion.json" = .ok verified :=
    (cmdVerify_eq rfl hread).trans hverify
  rw [fromSettlement, hledger]
  simp only [if_neg hne, not_not.2 hmem, if_false, hanchor, runVaa, Bind.bind, Except.bind,
    hcomputed, hheader, ne_eq, not_true_eq_false, hprove, hcheck]
  rfl

end Txids

/-- The settlement of a block whose root is the one `vaa anchor` comes to: the bundle of
    `vaa prove`, for any transaction id, has the root of the header exactly when every
    transaction id is its own hash, up to a collision. -/
theorem settlement_root_iff (sha256 : Bytes → Hash) (hexEncode : Bytes → String)
    (hexDecode : String → Except String Bytes) (files : Files) (block : Block)
    (out : List String) (i : ℕ) (hhex : HexCrate hexEncode hexDecode)
    (hleavesFile : files.leavesFromStr (files.dumpLeaves { leavesDisplayBe := block.tx }) =
      .ok { leavesDisplayBe := block.tx })
    (hrecordsFile : files.recordsFromStr (files.dumpRecords { recordsHex := block.tx }) =
      .ok { recordsHex := block.tx })
    (htx : ∀ t ∈ block.tx, IsTxid t)
    (hanchor : anchorTxids sha256 hexEncode hexDecode files block.tx = .ok out)
    (hheader : computedRoot out = some block.merkleroot) (hi : i < block.tx.length) :
    ∃ bundle leaves,
      List.Forall₂ (fun t leaf => displayToInternal hexDecode t = .ok leaf) block.tx leaves ∧
      (∀ pretty, files.toStringPretty bundle = .ok pretty → ∃ lines,
        proveTxids sha256 hexEncode hexDecode files block.tx i = .ok (pretty, lines)) ∧
      ((∀ t ∈ block.tx, OwnHash sha256 hexDecode t) →
        bundle.rootDisplayBe = block.merkleroot) ∧
      (bundle.rootDisplayBe = block.merkleroot →
        (∀ t ∈ block.tx, OwnHash sha256 hexDecode t) ∨
          Collision (Merkle.hashPair sha256)
            (rootPairs (Merkle.hashPair sha256) (leavesOf sha256 (displayBytes leaves)))
            (rootPairs (Merkle.hashPair sha256) leaves)) := by
  have hne : block.tx ≠ [] := List.ne_nil_of_length_pos (Nat.zero_lt_of_lt hi)
  obtain ⟨leaves, hleaves⟩ := exists_leaves hhex htx
  have hlt : i < (displayBytes leaves).length := by
    rwa [displayBytes, List.length_map, ← hleaves.length_eq]
  have hroot : block.merkleroot =
      internalToDisplay hexEncode (rootOf (Merkle.hashPair sha256) leaves) := by
    obtain ⟨out', hout', hcomputed⟩ :=
      computedRoot_anchorTxids sha256 hhex hne hleavesFile hleaves
    obtain rfl : out' = out := Except.ok.inj (hout'.symm.trans hanchor)
    exact Option.some.inj (hheader.symm.trans hcomputed)
  refine ⟨bundleOf sha256 hexEncode (displayBytes leaves) i (displayBytes leaves)[i], leaves,
    hleaves, fun pretty => proveTxids_of_pretty hexEncode hrecordsFile hleaves
      (List.getElem?_eq_getElem hlt), ?_⟩
  rw [hroot, bundleOf, internalToDisplay_inj hhex.codec]
  exact rootOf_displayBytes hne hleaves

/-! ## The first block -/

/-- The transaction id of the first block. -/
def genesisTxid : String := "4a5e1e4baab89f3a32518a88c31bc87f618f76673e2cc77ab2127b7afdeda33b"

/-- The first block: its root is its only transaction id. -/
def genesisBlock : Block := { tx := [genesisTxid], merkleroot := genesisTxid }

/-- The leaf of the transaction id. -/
def genesisLeaf : Hash :=
  #v[0x3b, 0xa3, 0xed, 0xfd, 0x7a, 0x7b, 0x12, 0xb2, 0x7a, 0xc7, 0x2c, 0x3e, 0x67, 0x76, 0x8f, 0x61,
     0x7f, 0xc8, 0x1b, 0xc3, 0x88, 0x8a, 0x51, 0x32, 0x3a, 0x9f, 0xb8, 0xaa, 0x4b, 0x1e, 0x5e, 0x4a]

/-- The bundle of the settlement of the first block. -/
def genesisBundle : ProofBundle where
  version := 2
  rootDisplayBe := "e98f1d6af6b5ae812dfcae745960ba035b121eb7bba973b98eafa483d64b9f1a"
  leafDisplayBe := "e98f1d6af6b5ae812dfcae745960ba035b121eb7bba973b98eafa483d64b9f1a"
  siblingsDisplayBe := []
  leafIndex := 0
  disclosedRecordHex := genesisTxid

/-- A string without characters to escape, in JSON. -/
def inQuotes (s : String) : String := "\"" ++ s ++ "\""

/-- A list of strings as `json.dumps` writes it under a key, with an indent of `2`. -/
def dumpList (key : String) (items : List String) : String :=
  "\x7b\n  " ++ inQuotes key ++ ": [\n    " ++
    ",\n    ".intercalate (items.map inQuotes) ++ "\n  ]\n\x7d"

/-- A list of leaves as written in its file. -/
def dumpLeaves (file : LeavesFile) : String := dumpList "leaves_display_be" file.leavesDisplayBe

/-- A list of records as written in its file. -/
def dumpRecords (file : RecordsFile) : String := dumpList "records_hex" file.recordsHex

/-- A bundle as written in its file. -/
def prettyBundle (bundle : ProofBundle) : String :=
  let siblings :=
    if bundle.siblingsDisplayBe = [] then "[]"
    else "[\n    " ++ ",\n    ".intercalate (bundle.siblingsDisplayBe.map inQuotes) ++ "\n  ]"
  "\x7b\n  \"version\": " ++ toString bundle.version ++
    ",\n  \"root_display_be\": " ++ inQuotes bundle.rootDisplayBe ++
    ",\n  \"leaf_display_be\": " ++ inQuotes bundle.leafDisplayBe ++
    ",\n  \"siblings_display_be\": " ++ siblings ++
    ",\n  \"leaf_index\": " ++ toString bundle.leafIndex ++
    ",\n  \"disclosed_record_hex\": " ++ inQuotes bundle.disclosedRecordHex ++ "\n\x7d"

example : prettyBundle lastBundle = lastFile := by decide +kernel

/-- The parser of the texts written for some known values. -/
def parseKnown {α : Type} (write : α → String) (known : List α) (text : String) :
    Except String α :=
  match known.find? fun a => write a = text with
  | some a => .ok a
  | none => .error "expected value at line 1 column 1"

theorem parseKnown_write {α : Type} (write : α → String) {known : List α} {a : α}
    (hmem : a ∈ known) (hinj : ∀ b ∈ known, write b = write a → b = a) :
    parseKnown write known (write a) = .ok a := by
  rw [parseKnown]
  cases hfind : known.find? fun b => write b = write a with
  | none => exact absurd (decide_eq_true rfl) (List.find?_eq_none.1 hfind a hmem)
  | some b =>
    have hwrite : decide (write b = write a) = true :=
      List.find?_some (p := fun b => write b = write a) hfind
    rw [hinj b (List.mem_of_find?_eq_some hfind) (of_decide_eq_true hwrite)]

/-- The JSON of the files, on these ones. -/
def knownFiles (leaves : List LeavesFile) (records : RecordsFile) (bundle : ProofBundle) :
    Files where
  dumpLeaves := dumpLeaves
  leavesFromStr := parseKnown dumpLeaves leaves
  dumpRecords := dumpRecords
  recordsFromStr := parseKnown dumpRecords [records]
  toStringPretty bundle := .ok (prettyBundle bundle)
  bundleFromStr := parseKnown prettyBundle [bundle]

section Known

variable {leaves : List LeavesFile} {records : RecordsFile} {bundle : ProofBundle}

theorem leavesFromStr_known {file : LeavesFile} (hmem : file ∈ leaves)
    (hinj : ∀ b ∈ leaves, dumpLeaves b = dumpLeaves file → b = file) :
    (knownFiles leaves records bundle).leavesFromStr
      ((knownFiles leaves records bundle).dumpLeaves file) = .ok file :=
  parseKnown_write dumpLeaves hmem hinj

theorem recordsFromStr_known : (knownFiles leaves records bundle).recordsFromStr
    ((knownFiles leaves records bundle).dumpRecords records) = .ok records :=
  parseKnown_write dumpRecords List.mem_cons_self fun _ hb _ => List.mem_singleton.1 hb

theorem toStringPretty_known (bundle' : ProofBundle) :
    (knownFiles leaves records bundle).toStringPretty bundle' = .ok (prettyBundle bundle') := rfl

theorem bundleFromStr_known :
    (knownFiles leaves records bundle).bundleFromStr (prettyBundle bundle) = .ok bundle := by
  simp only [knownFiles]
  exact parseKnown_write prettyBundle List.mem_cons_self fun _ hb _ => List.mem_singleton.1 hb

end Known

/-- The JSON of the files, on the first block. -/
def genesisFiles : Files :=
  knownFiles [{ leavesDisplayBe := [genesisTxid] }] { recordsHex := [genesisTxid] } genesisBundle

theorem leavesFromStr_genesis : genesisFiles.leavesFromStr
    (genesisFiles.dumpLeaves { leavesDisplayBe := genesisBlock.tx }) =
    .ok { leavesDisplayBe := genesisBlock.tx } :=
  leavesFromStr_known List.mem_cons_self fun _ hb _ => List.mem_singleton.1 hb

theorem recordsFromStr_genesis : genesisFiles.recordsFromStr
    (genesisFiles.dumpRecords { recordsHex := genesisBlock.tx }) =
    .ok { recordsHex := genesisBlock.tx } :=
  recordsFromStr_known

theorem bundleFromStr_genesis :
    genesisFiles.bundleFromStr (prettyBundle genesisBundle) = .ok genesisBundle :=
  bundleFromStr_known

theorem display_genesisLeaf : internalToDisplay Hex.encode genesisLeaf = genesisTxid := by
  decide +kernel

theorem isTxid_genesis : ∀ t ∈ genesisBlock.tx, IsTxid t := by
  intro t ht
  rw [List.mem_singleton.1 ht, ← display_genesisLeaf]
  exact isTxid_internalToDisplay Hex.hexCrate genesisLeaf

theorem forall₂_genesis :
    List.Forall₂ (fun t leaf => displayToInternal Hex.decode t = .ok leaf) genesisBlock.tx
      [genesisLeaf] := by
  refine .cons ?_ .nil
  rw [← display_genesisLeaf]
  exact displayToInternal_internalToDisplay Hex.hexCodec genesisLeaf

/-- `vaa anchor` comes to the root of the first block. -/
theorem header_genesis : ∃ out,
    anchorTxids Sha256.digest Hex.encode Hex.decode genesisFiles genesisBlock.tx = .ok out ∧
      computedRoot out = some genesisBlock.merkleroot := by
  have hroot : internalToDisplay Hex.encode
      (rootOf (Merkle.hashPair Sha256.digest) [genesisLeaf]) = genesisBlock.merkleroot :=
    display_genesisLeaf
  rw [← hroot]
  exact computedRoot_anchorTxids Sha256.digest Hex.hexCrate (by decide) leavesFromStr_genesis
    forall₂_genesis

/-- The settlement of the first block is verified against another root than its own. -/
theorem genesis_bundle_other_root :
    ¬∀ (files : Files) (block : Block) (out : List String) (i : ℕ) (bundle : ProofBundle)
      (pretty : String) (lines : List String),
      files.leavesFromStr (files.dumpLeaves { leavesDisplayBe := block.tx }) =
        .ok { leavesDisplayBe := block.tx } →
      files.recordsFromStr (files.dumpRecords { recordsHex := block.tx }) =
        .ok { recordsHex := block.tx } →
      (∀ t ∈ block.tx, IsTxid t) →
      anchorTxids Sha256.digest Hex.encode Hex.decode files block.tx = .ok out →
      computedRoot out = some block.merkleroot →
      proveTxids Sha256.digest Hex.encode Hex.decode files block.tx i = .ok (pretty, lines) →
      files.bundleFromStr pretty = .ok bundle → bundle.rootDisplayBe = block.merkleroot := by
  intro hall
  obtain ⟨out, hanchor, hheader⟩ := header_genesis
  have hbundle : bundleOf Sha256.digest Hex.encode (displayBytes [genesisLeaf]) 0
      genesisLeaf.toList.reverse = genesisBundle := by
    decide +kernel
  have hprove : ∃ lines, proveTxids Sha256.digest Hex.encode Hex.decode genesisFiles
      genesisBlock.tx 0 = .ok (prettyBundle genesisBundle, lines) := by
    refine proveTxids_of_pretty Hex.encode recordsFromStr_genesis forall₂_genesis rfl ?_
    rw [hbundle]
    exact toStringPretty_known genesisBundle
  obtain ⟨lines, hprove⟩ := hprove
  have hroot := hall genesisFiles genesisBlock out 0 genesisBundle (prettyBundle genesisBundle)
    lines leavesFromStr_genesis recordsFromStr_genesis isTxid_genesis hanchor hheader hprove
    bundleFromStr_genesis
  exact absurd hroot (by decide)

/-! ## A block of two transactions -/

/-- The block of `merkle.bsv_block.v1`. -/
def pairBlock : Block where
  tx :=
    ["b1fea52486ce0c62bb442b530a3f0132b826c74e473d1f2c220bfa78111c5082",
      "f4184fc596403b9d638783cf57adfe4c75c605f6356fbc91338530e9831e9e16"]
  merkleroot := "7dac2c5666815c17a3b36427de37bb9d2e2c5ccec3f8633eb91a4205cb4c10ff"

/-- The leaf of the first transaction. -/
def firstLeaf : Hash :=
  #v[0x82, 0x50, 0x1c, 0x11, 0x78, 0xfa, 0x0b, 0x22, 0x2c, 0x1f, 0x3d, 0x47, 0x4e, 0xc7, 0x26, 0xb8,
     0x32, 0x01, 0x3f, 0x0a, 0x53, 0x2b, 0x44, 0xbb, 0x62, 0x0c, 0xce, 0x86, 0x24, 0xa5, 0xfe, 0xb1]

/-- The leaf of the second transaction. -/
def secondLeaf : Hash :=
  #v[0x16, 0x9e, 0x1e, 0x83, 0xe9, 0x30, 0x85, 0x33, 0x91, 0xbc, 0x6f, 0x35, 0xf6, 0x05, 0xc6, 0x75,
     0x4c, 0xfe, 0xad, 0x57, 0xcf, 0x83, 0x87, 0x63, 0x9d, 0x3b, 0x40, 0x96, 0xc5, 0x4f, 0x18, 0xf4]

/-- The leaves of the block. -/
def pairLeaves : List Hash := [firstLeaf, secondLeaf]

/-- The ids as an explorer may also write them: in upper case. -/
def upperPairBlock : Block where
  tx :=
    ["B1FEA52486CE0C62BB442B530A3F0132B826C74E473D1F2C220BFA78111C5082",
      "F4184FC596403B9D638783CF57ADFE4C75C605F6356FBC91338530E9831E9E16"]
  merkleroot := pairBlock.merkleroot

/-- The JSON of the files, on the block in either case. -/
def pairFiles : Files :=
  knownFiles [{ leavesDisplayBe := pairBlock.tx }, { leavesDisplayBe := upperPairBlock.tx }]
    { recordsHex := pairBlock.tx }
    (bundleOf Sha256.digest Hex.encode (displayBytes pairLeaves) 1 secondLeaf.toList.reverse)

theorem display_pairLeaves : pairLeaves.map (internalToDisplay Hex.encode) = pairBlock.tx := by
  decide +kernel

theorem display_pairRoot : pairBlock.merkleroot =
    internalToDisplay Hex.encode (rootOf (Merkle.hashPair Sha256.digest) pairLeaves) := by
  decide +kernel

theorem isTxid_pair : ∀ t ∈ pairBlock.tx, IsTxid t := by
  intro t ht
  rw [← display_pairLeaves] at ht
  obtain ⟨leaf, -, rfl⟩ := List.mem_map.1 ht
  exact isTxid_internalToDisplay Hex.hexCrate leaf

theorem forall₂_pair :
    List.Forall₂ (fun t leaf => displayToInternal Hex.decode t = .ok leaf) pairBlock.tx
      pairLeaves := by
  rw [← display_pairLeaves]
  exact forall₂_internalToDisplay Hex.hexCodec pairLeaves

theorem leavesFromStr_pair : pairFiles.leavesFromStr
    (pairFiles.dumpLeaves { leavesDisplayBe := pairBlock.tx }) =
    .ok { leavesDisplayBe := pairBlock.tx } :=
  leavesFromStr_known List.mem_cons_self (by decide +kernel)

theorem recordsFromStr_pair : pairFiles.recordsFromStr
    (pairFiles.dumpRecords { recordsHex := pairBlock.tx }) = .ok { recordsHex := pairBlock.tx } :=
  recordsFromStr_known

/-- The settlement of the second transaction of the block. -/
theorem settlement_root_iff_pair :
    ∃ bundle leaves,
      List.Forall₂ (fun t leaf => displayToInternal Hex.decode t = .ok leaf) pairBlock.tx
        leaves ∧
      (∀ pretty, pairFiles.toStringPretty bundle = .ok pretty → ∃ lines,
        proveTxids Sha256.digest Hex.encode Hex.decode pairFiles pairBlock.tx 1 =
          .ok (pretty, lines)) ∧
      ((∀ t ∈ pairBlock.tx, OwnHash Sha256.digest Hex.decode t) →
        bundle.rootDisplayBe = pairBlock.merkleroot) ∧
      (bundle.rootDisplayBe = pairBlock.merkleroot →
        (∀ t ∈ pairBlock.tx, OwnHash Sha256.digest Hex.decode t) ∨
          Collision (Merkle.hashPair Sha256.digest)
            (rootPairs (Merkle.hashPair Sha256.digest)
              (leavesOf Sha256.digest (displayBytes leaves)))
            (rootPairs (Merkle.hashPair Sha256.digest) leaves)) := by
  obtain ⟨out, hanchor, hheader⟩ : ∃ out,
      anchorTxids Sha256.digest Hex.encode Hex.decode pairFiles pairBlock.tx = .ok out ∧
        computedRoot out = some pairBlock.merkleroot := by
    rw [display_pairRoot]
    exact computedRoot_anchorTxids Sha256.digest Hex.hexCrate (by decide) leavesFromStr_pair
      forall₂_pair
  exact settlement_root_iff Sha256.digest Hex.encode Hex.decode pairFiles pairBlock out 1
    Hex.hexCrate leavesFromStr_pair recordsFromStr_pair isTxid_pair hanchor hheader (by decide)

end Vaa.Cli
