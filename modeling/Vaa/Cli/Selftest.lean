import Vaa.Accounting
import Vaa.Cli.Anchor
import Vaa.Cli.Failures
import Vaa.Merkle.Binding
import Vaa.ProofStore.Agreement

/-!
# The self-test

`vaa selftest` runs the layers once, over eight leaves (`cmdSelftest`): the digest of the
empty string, a proof and an altered leaf, two accounting equations, and a record anchored,
queried and verified in both ways.

Whatever the hash function, it returns, and only two of its checks can fail
(`selftest_fails_iff`): the digest is not the known one, or the altered leaf is accepted,
and then two pairs that it hashes collide.
-/

namespace Vaa.Cli

open PairTree Merkle ProofStore Accounting

/-! ## `vaa selftest` -/

/-- The known digest of the empty string, in hexadecimal. -/
def knownVector : String := "5df6e0e2761359d30a8275058e299fcc0381534545f55cf43e41983f5d4c9456"

/-- The synthetic leaves. -/
def selftestLeaves : List Hash :=
  (List.range' 1 8).map fun i =>
    let h : Hash := Vector.replicate 32 0
    h.setIfInBounds 31 (UInt8.ofNat i)

/-- The key the record is anchored under. -/
def selftestKey : IndexKey :=
  let txid : Hash := Vector.replicate 32 0
  { txid := txid.setIfInBounds 31 42, direction := .output, position := 0, blockPosition := 3
    lockingScript := none, unlockingScript := none, amount := none }

/-- `altered[0] ^= 1`. -/
def alter (leaf : Hash) : Hash := leaf.setIfInBounds 0 (leaf.getD 0 0 ^^^ 1)

/-- The lines `cmd_selftest` prints. -/
def selftestLines : List String :=
  ["vaa selftest", "============",
    "  [ok]  bsv         : double-SHA256 known-vector matches",
    "  [ok]  merkle      : synthetic 8-leaf proof verifies; altered leaf rejected",
    "  [ok]  accounting  : Net + Tax == Gross + Discount (recomputed over records)",
    "  [ok]  accounting  : AR roll-forward identity holds",
    "  [ok]  proofstore  : anchor + query + adversarial verify + assisted verify",
    "", "selftest passed: 5/5 checks"]

/-- `result.map_err(|e| anyhow::anyhow!("{text}: {e}"))`. -/
def describe (text : String) (x : Result AccountingError Unit) : Result AnyhowError Unit :=
  x.mapErr fun e => { chain := [s!"{text}: {e.text}"] }

section Hash

variable (sha256 : Bytes → Hash) (hexDecode : String → Except String Bytes)

/-- `cmd_selftest`. -/
def cmdSelftest : Result AnyhowError (List String) := do
  let h := Bsv.doubleSha256 sha256 []
  let expected ← Result.foreign (hexDecode knownVector)
  if h.toList ≠ expected then
    bail "bsv: double-SHA256 of empty string did not match the known vector"
  else
    let leaves := selftestLeaves
    let root ← (merkleRoot (Merkle.hashPair sha256) leaves).mapErr ofMerkle
    let proof ← (merkleProof (Merkle.hashPair sha256) leaves 3).mapErr ofMerkle
    let leaf ← Result.index leaves 3
    (proof.verify (Merkle.hashPair sha256) leaf root).mapErr ofMerkle
    let rejected ← Result.isErr (proof.verify (Merkle.hashPair sha256) (alter leaf) root)
    if !rejected then
      bail "merkle: altered leaf was incorrectly accepted"
    else
      describe "accounting: invoice identity" (InvoiceTotal.verify
        { net := 100000, tax := 21000, discount := 4000, gross := 117000 })
      describe "accounting: AR roll-forward" (ArRollForward.verify
        { arOpen := 50000, invoices := 60000, arClose := 40000, receipts := 65000
          creditNotes := 3000, writeOffs := 2000 })
      let store := ProofStore.new 1
      let (store, anchored) := store.anchor sha256 selftestKey leaves 3
      let storeRoot ← anchored.mapErr ofProofStore
      if storeRoot ≠ root then
        bail "proofstore: anchored root does not match direct merkle_root"
      else
        let stored ← (store.query selftestKey).mapErr ofProofStore
        (ProofStore.verify sha256 leaf stored .adversarial).mapErr ofProofStore
        (store.verifyWithAssistance sha256 leaf stored).mapErr ofProofStore
        return selftestLines

end Hash

variable {sha256 : Bytes → Hash} {hexEncode : Bytes → String}
  {hexDecode : String → Except String Bytes}

/-! ## The two checks that depend on the hash function -/

/-- The digest of the empty string is the known one. -/
def DigestKnown (sha256 : Bytes → Hash) (hexEncode : Bytes → String) : Prop :=
  hexEncode (Bsv.doubleSha256 sha256 []).toList = knownVector

/-- The altered leaf leads to the root, by the path of the leaf. -/
def AlteredAccepted (sha256 : Bytes → Hash) : Prop :=
  walk (Merkle.hashPair sha256) (alter (leafAt selftestLeaves 3)) 3
    (path (Merkle.hashPair sha256) selftestLeaves 3) =
    rootOf (Merkle.hashPair sha256) selftestLeaves

theorem lt_length_selftestLeaves : 3 < selftestLeaves.length := by decide

/-- The altered leaf is accepted only by a collision. -/
theorem collision_of_alteredAccepted (haccepted : AlteredAccepted sha256) :
    Collision (Merkle.hashPair sha256)
      (walkPairs (Merkle.hashPair sha256) (alter (leafAt selftestLeaves 3)) 3
        (path (Merkle.hashPair sha256) selftestLeaves 3))
      (rootPairs (Merkle.hashPair sha256) selftestLeaves) :=
  collision_of_walk_path lt_length_selftestLeaves (by decide) haccepted

/-- The known digest is read as the bytes it is written from. -/
theorem ne_known_iff (hhex : HexCrate hexEncode hexDecode) {bytes expected : Bytes}
    (hexpected : hexDecode knownVector = .ok expected) :
    bytes ≠ expected ↔ hexEncode bytes ≠ knownVector := by
  have hencode : hexEncode expected = knownVector := by
    rw [hhex.encode_of_decode hexpected, ← String.toList_inj]
    exact (String.toList_map ..).trans (by decide)
  refine not_congr ⟨fun heq => heq ▸ hencode, fun heq => ?_⟩
  rw [← heq, hhex.codec.decode_encode] at hexpected
  exact Except.ok.inj hexpected

theorem exists_knownVector (hhex : HexCrate hexEncode hexDecode) :
    ∃ expected, hexDecode knownVector = .ok expected := by
  have hdigits : knownVector.toList.all (fun c => (Hex.value c).isSome) = true := by decide
  have hlength : knownVector.length = 2 * 32 := rfl
  obtain ⟨expected, hexpected, -⟩ :=
    hhex.exists_decode_iff.2 ⟨hlength, List.all_eq_true.1 hdigits⟩
  exact ⟨expected, hexpected⟩

theorem invoiceTotal_holds : InvoiceTotal.verify
    { net := 100000, tax := 21000, discount := 4000, gross := 117000 } = .ok () := by decide

theorem arRollForward_holds : ArRollForward.verify
    { arOpen := 50000, invoices := 60000, arClose := 40000, receipts := 65000
      creditNotes := 3000, writeOffs := 2000 } = .ok () := by decide

/-- A leaf that is anchored passes both verifiers, by the proof stored for it. -/
theorem verifies_anchored (sha256 : Bytes → Hash) (store : ProofStore) (key : IndexKey)
    {leaves : List Hash} {i : ℕ} (hi : i < leaves.length) :
    ProofStore.verify sha256 (leafAt leaves i)
      (storedOf sha256 store.predeterminedLevel key leaves i) .adversarial = .ok () ∧
    (store.anchor sha256 key leaves i).1.verifyWithAssistance sha256 (leafAt leaves i)
      (storedOf sha256 store.predeterminedLevel key leaves i) = .ok () := by
  constructor
  · rw [ProofStore.verify_eq_ok_iff, reassemble_storedOf]
    exact walk_path _ hi
  · have hanchor : (store.anchor sha256 key leaves i).2 =
        .ok (rootOf (Merkle.hashPair sha256) leaves) := anchor_eq_ok_iff.2 ⟨hi, rfl⟩
    rw [(publishes_anchor hanchor).verify_own_iff hi]
    exact walk_opening_leaf _ hi _

/-- `cmd_selftest` comes down to the two checks. -/
theorem cmdSelftest_eq (sha256 : Bytes → Hash) (hhex : HexCrate hexEncode hexDecode)
    [Decidable (DigestKnown sha256 hexEncode)] [Decidable (AlteredAccepted sha256)] :
    cmdSelftest sha256 hexDecode =
      if ¬DigestKnown sha256 hexEncode then
        bail "bsv: double-SHA256 of empty string did not match the known vector"
      else if AlteredAccepted sha256 then
        bail "merkle: altered leaf was incorrectly accepted"
      else
        .ok selftestLines := by
  obtain ⟨expected, hexpected⟩ := exists_knownVector hhex
  simp only [cmdSelftest, hexpected, Result.foreign, Result.ok_bind]
  refine if_congr (ne_known_iff hhex hexpected) rfl ?_
  have hlt := lt_length_selftestLeaves
  have hroot := merkleRoot_eq (Merkle.hashPair sha256) (ne_nil_of_lt hlt)
  have hproof := merkleProof_eq (Merkle.hashPair sha256) hlt
  have hleaf : (Result.index selftestLeaves 3 : Result AnyhowError Hash) =
      .ok (leafAt selftestLeaves 3) := Result.index_of_getElem? (getElem?_eq_leafAt hlt)
  have hverify : MerkleProof.verify (Merkle.hashPair sha256)
      { leafIndex := 3, siblings := path (Merkle.hashPair sha256) selftestLeaves 3 }
      (leafAt selftestLeaves 3) (rootOf (Merkle.hashPair sha256) selftestLeaves) = .ok () :=
    Merkle.verify_eq_ok_iff.2 (walk_path _ hlt)
  simp only [hroot, hproof, hleaf, hverify, isErr_verify, Result.mapErr, Result.ok_bind]
  refine if_congr (by simp [AlteredAccepted]) rfl ?_
  -- The checks from here on do not depend on what is hashed.
  have hanchor : ((ProofStore.new 1).anchor sha256 selftestKey selftestLeaves 3).2 =
      .ok (rootOf (Merkle.hashPair sha256) selftestLeaves) := anchor_eq_ok_iff.2 ⟨hlt, rfl⟩
  obtain ⟨hplain, hassisted⟩ := verifies_anchored sha256 (ProofStore.new 1) selftestKey hlt
  simp only [describe, invoiceTotal_holds, arRollForward_holds, hanchor, query_anchor _ _ _ hlt,
    hplain, hassisted, Result.mapErr, Result.ok_bind, ne_eq, not_true_eq_false, if_false]
  rfl

/-! ## How the self-test fails -/

/-- The self-test fails exactly when the digest of the empty string is not the known one,
    or when the altered leaf is accepted, and with the error of that check; the altered leaf
    is accepted only when two pairs hashed on its way up and in the tree collide. -/
theorem selftest_fails_iff (sha256 : Bytes → Hash) (hexEncode : Bytes → String)
    (hexDecode : String → Except String Bytes) (hhex : HexCrate hexEncode hexDecode) :
    (∀ fault, cmdSelftest sha256 hexDecode = .error fault ↔
      (¬DigestKnown sha256 hexEncode ∧ fault = .err { chain :=
        ["bsv: double-SHA256 of empty string did not match the known vector"] }) ∨
      (DigestKnown sha256 hexEncode ∧ AlteredAccepted sha256 ∧ fault = .err { chain :=
        ["merkle: altered leaf was incorrectly accepted"] })) ∧
    (AlteredAccepted sha256 → Collision (Merkle.hashPair sha256)
      (walkPairs (Merkle.hashPair sha256) (alter (leafAt selftestLeaves 3)) 3
        (path (Merkle.hashPair sha256) selftestLeaves 3))
      (rootPairs (Merkle.hashPair sha256) selftestLeaves)) := by
  classical
  refine ⟨fun fault => ?_, collision_of_alteredAccepted⟩
  rw [cmdSelftest_eq sha256 hhex]
  by_cases hknown : DigestKnown sha256 hexEncode
  · rw [if_neg (not_not.2 hknown)]
    by_cases haccepted : AlteredAccepted sha256
    · rw [if_pos haccepted, Result.bail_eq_error_iff]
      simp only [hknown, haccepted, not_true_eq_false, false_and, true_and, false_or]
    · rw [if_neg haccepted]
      simp [haccepted, hknown]
  · rw [if_pos hknown, Result.bail_eq_error_iff]
    simp only [hknown, not_false_eq_true, false_and, true_and, or_false]

/-- Over SHA-256, the self-test does not panic. -/
theorem selftest_fails_iff_digest :
    (cmdSelftest Sha256.digest Hex.decode).Returns := by
  intro hpanic
  rcases ((selftest_fails_iff Sha256.digest Hex.encode Hex.decode Hex.hexCrate).1 _).1 hpanic with
    ⟨-, hfault⟩ | ⟨-, -, hfault⟩
  · cases hfault
  · cases hfault

end Vaa.Cli
