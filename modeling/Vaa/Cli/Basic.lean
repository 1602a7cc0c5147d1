import Vaa.Api
import Vaa.Hex

/-!
# The command-line interface

The crate `vaa-cli`: `vaa verify` reads a proof bundle, checks the Merkle proof in
it, and then has the audit verifier check the disclosed record against the leaf, over
a store where the leaf is anchored alone (`cmdVerify`).

The file system, the JSON parser and the hexadecimal decoder are parameters; a failed
call of one is known by the text of its error. So is the text of a `TryFromIntError`,
which depends on the toolchain. A command that succeeds ends with the lines it printed.
-/

namespace Vaa.Cli

open PairTree Merkle ProofStore

/-! ## Errors -/

/-- A `MerkleError` as the cause of an error of the binary. -/
def ofMerkle (e : MerkleError) : AnyhowError where
  chain := [e.text]

/-- A `ProofStoreError`, followed by the error it wraps. -/
def ofProofStore (e : ProofStoreError) : AnyhowError where
  chain :=
    match e with
    | .merkle source => e.text :: (ofMerkle source).chain
    | _ => [e.text]

/-- An `ApiError`, followed by the error it wraps. -/
def ofApi (e : ApiError) : AnyhowError where
  chain :=
    match e with
    | .proofStore source => e.text :: (ofProofStore source).chain
    | _ => [e.text]

/-! ## Files -/

/-- `ProofBundle`: a proof bundle as written in its file. -/
structure ProofBundle where
  version : UInt32
  rootDisplayBe : String
  leafDisplayBe : String
  siblingsDisplayBe : List String
  leafIndex : ℕ
  disclosedRecordHex : String
  deriving DecidableEq, Repr

/-- The leaves of a list of records. -/
def leavesOf (sha256 : Bytes → Hash) (records : List Bytes) : List Hash :=
  records.map (Bsv.doubleSha256 sha256)

section Decode

variable (hexDecode : String → Except String Bytes)

/-- `out.copy_from_slice(&bytes)`, into a hash. -/
def copyFromSlice {ε : Type} (bytes : Bytes) : Result ε Hash :=
  if h : bytes.length = 32 then
    .ok ⟨bytes.toArray, by simpa using h⟩
  else
    .error .panicked

/-- `display_to_internal`. -/
def displayToInternal (hexStr : String) : Result AnyhowError Hash := do
  let bytes ← (Result.foreign (hexDecode (trim hexStr))).context "invalid hex"
  if bytes.length ≠ 32 then
    bail s!"expected 32 bytes, got {bytes.length}"
  else
    let bytes := bytes.reverse
    copyFromSlice bytes

/-- The siblings of a bundle, the error naming the first one that does not decode. -/
def decodeSiblings (siblingsDisplayBe : List String) : Result AnyhowError (List Hash) :=
  siblingsDisplayBe.zipIdx.mapM fun (s, i) =>
    (displayToInternal hexDecode s).context s!"sibling #{i}"

end Decode

/-! ## `vaa verify` -/

/-- `u32::try_from` on a `usize`; `tryFromIntError` is the text of its error. -/
def u32TryFrom (tryFromIntError : String) (n : ℕ) : Result AnyhowError UInt32 :=
  if n < 2 ^ 32 then
    .ok (UInt32.ofNat n)
  else
    bail tryFromIntError

/-- The text of a `TryFromIntError` in Rust 1.85. -/
def outOfRange : String := "out of range integral type conversion attempted"

/-- The lines printed for an accepted bundle. -/
def verified (bundle : ProofBundle) (recomputedLeaf : Hash) : List String :=
  ["verify OK",
    s!"  merkle root  : {bundle.rootDisplayBe}",
    s!"  leaf index   : {bundle.leafIndex}",
    s!"  record bytes : {recomputedLeaf.toList.length} bytes disclosed"]

theorem u32TryFrom_eq_ok_iff {tryFromIntError : String} {n : ℕ} {m : UInt32} :
    u32TryFrom tryFromIntError n = .ok m ↔ n < 2 ^ 32 ∧ UInt32.ofNat n = m := by
  rw [u32TryFrom, bail]
  split <;> simp_all

section Verify

variable (sha256 : Bytes → Hash) (hexDecode : String → Except String Bytes)
  (tryFromIntError : String)

/-- `cmd_verify` from the parsed bundle up to the end of its checks: the leaf
    recomputed, and the evidence returned by the audit verifier. -/
def checkBundle (bundle : ProofBundle) : Result AnyhowError (Hash × AuditEvidence) := do
  if bundle.version ≠ 2 then
    bail s!"unsupported bundle version: {bundle.version} (expected 2)"
  else
    let leaf ← displayToInternal hexDecode bundle.leafDisplayBe
    let expectedRoot ← displayToInternal hexDecode bundle.rootDisplayBe
    let siblings ← decodeSiblings hexDecode bundle.siblingsDisplayBe
    let proof : MerkleProof := { leafIndex := bundle.leafIndex, siblings := siblings }
    ((proof.verify (Merkle.hashPair sha256) leaf expectedRoot).mapErr ofMerkle).context
      "merkle inclusion failed"
    let disclosed ← (Result.foreign (hexDecode (trim bundle.disclosedRecordHex))).context
      "disclosed record hex invalid"
    let recomputedLeaf := Bsv.doubleSha256 sha256 disclosed
    if recomputedLeaf ≠ leaf then
      bail "disclosed record does not hash to the bundle's leaf"
    else
      let store := ProofStore.new 0
      let blockPosition ← (u32TryFrom tryFromIntError bundle.leafIndex).context
        "leaf index does not fit u32"
      let indexKey : IndexKey :=
        { txid := leaf, direction := .output, position := 0, blockPosition := blockPosition
          lockingScript := none, unlockingScript := none, amount := none }
      let (store, anchored) := store.anchor sha256 indexKey [leaf] 0
      -- An `Err` of `anchor` is dropped, a panic is not.
      if anchored = .error .panicked then
        .error .panicked
      else
        let auditBundle : AuditBundle :=
          { indexKey := indexKey, disclosedRecord := disclosed, leaf := leaf
            mode := .adversarial }
        let ev ← (((AuditVerifier.new store).verify sha256 auditBundle).mapErr ofApi).context
          "audit API verification failed"
        return (recomputedLeaf, ev)

/-- `cmd_verify` from the parsed bundle on. -/
def verifyBundle (bundle : ProofBundle) : Result AnyhowError (List String) := do
  let (recomputedLeaf, _ev) ← checkBundle sha256 hexDecode tryFromIntError bundle
  return verified bundle recomputedLeaf

/-- `cmd_verify`. -/
def cmdVerify (readToString : String → Except String String)
    (bundleFromStr : String → Except String ProofBundle) (bundlePath : String) :
    Result AnyhowError (List String) := do
  let raw ← (Result.foreign (readToString bundlePath)).context s!"reading bundle {bundlePath}"
  let bundle ← (Result.foreign (bundleFromStr raw)).context "parsing bundle JSON"
  verifyBundle sha256 hexDecode tryFromIntError bundle

end Verify

/-! ## What `vaa verify` accepts -/

/-- The values a bundle decodes to. -/
structure Decodes (hexDecode : String → Except String Bytes) (bundle : ProofBundle)
    (leaf root : Hash) (siblings : List Hash) (disclosed : Bytes) : Prop where
  leaf_eq : displayToInternal hexDecode bundle.leafDisplayBe = .ok leaf
  root_eq : displayToInternal hexDecode bundle.rootDisplayBe = .ok root
  siblings_eq : decodeSiblings hexDecode bundle.siblingsDisplayBe = .ok siblings
  disclosed_eq : hexDecode (trim bundle.disclosedRecordHex) = .ok disclosed

/-- The siblings of a bundle decode one by one. -/
theorem decodeSiblings_eq_ok_iff {hexDecode : String → Except String Bytes}
    {siblingsDisplayBe : List String} {siblings : List Hash} :
    decodeSiblings hexDecode siblingsDisplayBe = .ok siblings ↔
      List.Forall₂ (fun s sibling => displayToInternal hexDecode s = .ok sibling)
        siblingsDisplayBe siblings := by
  rw [decodeSiblings, Result.mapM_eq_ok_iff]
  simp only [Result.context_eq_ok_iff]
  exact Result.forall₂_zipIdx_iff
    (R := fun s sibling => displayToInternal hexDecode s = .ok sibling)

/-- A bundle decodes to one set of values. -/
theorem Decodes.unique {hexDecode : String → Except String Bytes} {bundle : ProofBundle}
    {leaf leaf' root root' : Hash} {siblings siblings' : List Hash} {disclosed disclosed' : Bytes}
    (hd : Decodes hexDecode bundle leaf root siblings disclosed)
    (hd' : Decodes hexDecode bundle leaf' root' siblings' disclosed') :
    leaf = leaf' ∧ siblings = siblings' ∧ disclosed = disclosed' :=
  ⟨Except.ok.inj (hd.leaf_eq.symm.trans hd'.leaf_eq),
    Except.ok.inj (hd.siblings_eq.symm.trans hd'.siblings_eq),
    Except.ok.inj (hd.disclosed_eq.symm.trans hd'.disclosed_eq)⟩

section Leaves

variable {sha256 : Bytes → Hash} {records : List Bytes}

theorem leavesOf_ne_nil (hne : records ≠ []) : leavesOf sha256 records ≠ [] := by
  simpa [leavesOf] using hne

/-- The leaf at an index is the hash of the record there. -/
theorem leafAt_leavesOf {q : ℕ} {record : Bytes} (hq : records[q]? = some record) :
    leafAt (leavesOf sha256 records) q = Bsv.doubleSha256 sha256 record := by
  rw [leafAt, List.getD_eq_getElem?_getD, leavesOf, List.getElem?_map, hq]
  rfl

end Leaves

/-- A leaf anchored alone passes the audit of its record. -/
theorem audit_single {sha256 : Bytes → Hash} {key : IndexKey} {leaf : Hash} {disclosed : Bytes}
    (hrecord : Bsv.doubleSha256 sha256 disclosed = leaf) :
    (AuditVerifier.new ((ProofStore.new 0).anchor sha256 key [leaf] 0).1).verify sha256
      { indexKey := key, disclosedRecord := disclosed, leaf := leaf, mode := .adversarial } =
      .ok { merkleRoot := leaf, leafIndex := 0, disclosedRecord := disclosed } := by
  rw [AuditVerifier.verify_eq_ok_iff, AuditVerifier.new, anchor_eq _ _ _ (by simp)]
  refine ⟨rfl, hrecord, storedOf sha256 0 key [leaf] 0, ?_, ?_, rfl⟩
  · rw [query_eq_ok_iff]
    exact Function.update_self ..
  · rw [ProofStore.verify_eq_ok_iff, reassemble_storedOf]
    exact walk_path _ (show 0 < [leaf].length from Nat.one_pos)

/-- `vaa verify` on a file that parses. -/
theorem cmdVerify_eq {sha256 : Bytes → Hash} {hexDecode : String → Except String Bytes}
    {tryFromIntError : String} {readToString : String → Except String String}
    {bundleFromStr : String → Except String ProofBundle} {bundlePath raw : String}
    {bundle : ProofBundle} (hread : readToString bundlePath = .ok raw)
    (hparse : bundleFromStr raw = .ok bundle) :
    cmdVerify sha256 hexDecode tryFromIntError readToString bundleFromStr bundlePath =
      verifyBundle sha256 hexDecode tryFromIntError bundle := by
  simp [cmdVerify, hread, hparse, Result.foreign, Result.context, Result.mapErr, Bind.bind,
    Except.bind]

/-- The checks end with the evidence of the leaf anchored alone, when they pass. -/
theorem checkBundle_eq_ok_iff {sha256 : Bytes → Hash} {hexDecode : String → Except String Bytes}
    {tryFromIntError : String} {bundle : ProofBundle} {recomputedLeaf : Hash}
    {ev : AuditEvidence} :
    checkBundle sha256 hexDecode tryFromIntError bundle = .ok (recomputedLeaf, ev) ↔
      bundle.version = 2 ∧ bundle.leafIndex < 2 ^ 32 ∧ ∃ root siblings,
        Decodes hexDecode bundle recomputedLeaf root siblings ev.disclosedRecord ∧
        Bsv.doubleSha256 sha256 ev.disclosedRecord = recomputedLeaf ∧
        walk (Merkle.hashPair sha256) recomputedLeaf bundle.leafIndex siblings = root ∧
        ev.merkleRoot = recomputedLeaf ∧ ev.leafIndex = 0 := by
  simp only [checkBundle]
  by_cases hversion : bundle.version = 2
  · simp only [hversion, ne_eq, not_true_eq_false, if_false, true_and, Result.bind_eq_ok_iff,
      Result.context_eq_ok_iff, Result.foreign_eq_ok_iff, Result.mapErr_eq_ok_iff]
    constructor
    · rintro ⟨leaf, hleaf, root, hroot, siblings, hsiblings, ⟨⟩, hwalk, disclosed, hdisclosed,
        hrest⟩
      by_cases hrecord : Bsv.doubleSha256 sha256 disclosed = leaf
      · simp only [hrecord, not_true_eq_false, if_false, Result.bind_eq_ok_iff,
          Result.context_eq_ok_iff, u32TryFrom_eq_ok_iff] at hrest
        obtain ⟨_, ⟨hindex, _⟩, hrest⟩ := hrest
        split at hrest
        · cases hrest
        · simp only [audit_single hrecord, Result.bind_eq_ok_iff, Result.context_eq_ok_iff,
            Result.mapErr_eq_ok_iff] at hrest
          obtain ⟨_, hev, hreturn⟩ := hrest
          cases hev
          cases hreturn
          exact ⟨hindex, root, siblings, ⟨hleaf, hroot, hsiblings, hdisclosed⟩, hrecord,
            Merkle.verify_eq_ok_iff.1 hwalk, rfl, rfl⟩
      · simp [hrecord, bail] at hrest
    · rintro ⟨hindex, root, siblings, hdecodes, hrecord, hwalk, hmerkleRoot, hzero⟩
      refine ⟨recomputedLeaf, hdecodes.leaf_eq, root, hdecodes.root_eq, siblings,
        hdecodes.siblings_eq, (), Merkle.verify_eq_ok_iff.2 hwalk, ev.disclosedRecord,
        hdecodes.disclosed_eq, ?_⟩
      -- The checks from here on are those of the leaf anchored alone.
      have hanchor (key : IndexKey) :
          ((ProofStore.new 0).anchor sha256 key [recomputedLeaf] 0).2 ≠ .error .panicked := by
        rw [anchor_eq _ _ _ (by simp)]
        simp
      simp only [hrecord, not_true_eq_false, if_false, Result.bind_eq_ok_iff,
        Result.context_eq_ok_iff, u32TryFrom_eq_ok_iff]
      refine ⟨_, ⟨hindex, rfl⟩, ?_⟩
      simp only [hanchor, if_false, Result.bind_eq_ok_iff, Result.context_eq_ok_iff,
        Result.mapErr_eq_ok_iff]
      refine ⟨_, audit_single hrecord, ?_⟩
      rw [← hzero]
      nth_rewrite 2 [← hmerkleRoot]
      rfl
  · simp [hversion, bail]

/-- `vaa verify` accepts a bundle exactly when it has the version `2`, its record
    hashes to its leaf, its siblings lead from the leaf to its root, and its index
    fits 32 bits. -/
theorem verifyBundle_ok_iff {sha256 : Bytes → Hash} {hexDecode : String → Except String Bytes}
    {tryFromIntError : String} {bundle : ProofBundle} :
    (∃ lines, verifyBundle sha256 hexDecode tryFromIntError bundle = .ok lines) ↔
      bundle.version = 2 ∧ bundle.leafIndex < 2 ^ 32 ∧ ∃ leaf root siblings disclosed,
        Decodes hexDecode bundle leaf root siblings disclosed ∧
        Bsv.doubleSha256 sha256 disclosed = leaf ∧
        walk (Merkle.hashPair sha256) leaf bundle.leafIndex siblings = root := by
  simp only [verifyBundle, Result.bind_eq_ok_iff]
  constructor
  · rintro ⟨_, ⟨leaf, ev⟩, hcheck, -⟩
    obtain ⟨hversion, hindex, root, siblings, hdecodes, hrecord, hwalk, -, -⟩ :=
      checkBundle_eq_ok_iff.1 hcheck
    exact ⟨hversion, hindex, leaf, root, siblings, _, hdecodes, hrecord, hwalk⟩
  · rintro ⟨hversion, hindex, leaf, root, siblings, disclosed, hdecodes, hrecord, hwalk⟩
    let ev : AuditEvidence :=
      { merkleRoot := leaf, leafIndex := 0, disclosedRecord := disclosed }
    have hcheck : checkBundle sha256 hexDecode tryFromIntError bundle = .ok (leaf, ev) :=
      checkBundle_eq_ok_iff.2 ⟨hversion, hindex, root, siblings, hdecodes, hrecord, hwalk, rfl, rfl⟩
    exact ⟨_, _, hcheck, rfl⟩

end Vaa.Cli
