import Vaa.Cli.Prove

/-!
# The evidence behind `vaa verify`

After the direct Merkle check, `vaa verify` has the audit verifier check the record
over a store where the leaf is anchored alone, as the only leaf of its tree, and drops
the evidence it returns. So this evidence is about the tree of one leaf: it confirms
the root and the index of the bundle exactly when the bundle is about such a tree too
(`evidence_iff`).
-/

namespace Vaa.Cli

open PairTree Merkle ProofStore

/-- The evidence returned by the audit verifier is about the root and the index of the
    bundle. -/
def EvidenceConfirms (sha256 : Bytes → Hash) (hexDecode : String → Except String Bytes)
    (tryFromIntError : String) (bundle : ProofBundle) : Prop :=
  ∃ recomputedLeaf ev,
    checkBundle sha256 hexDecode tryFromIntError bundle = .ok (recomputedLeaf, ev) ∧
    displayToInternal hexDecode bundle.rootDisplayBe = .ok ev.merkleRoot ∧
    ev.leafIndex = bundle.leafIndex

/-- The evidence behind an accepted bundle is about its root and its index exactly when
    its leaf is its root, at the index `0`. -/
theorem evidence_iff (sha256 : Bytes → Hash) (hexDecode : String → Except String Bytes)
    (tryFromIntError : String) (readToString : String → Except String String)
    (bundleFromStr : String → Except String ProofBundle) (bundlePath raw : String)
    (bundle : ProofBundle) (lines : List String) (hread : readToString bundlePath = .ok raw)
    (hparse : bundleFromStr raw = .ok bundle)
    (hok : cmdVerify sha256 hexDecode tryFromIntError readToString bundleFromStr bundlePath =
      .ok lines) :
    EvidenceConfirms sha256 hexDecode tryFromIntError bundle ↔
      displayToInternal hexDecode bundle.leafDisplayBe =
          displayToInternal hexDecode bundle.rootDisplayBe ∧
        bundle.leafIndex = 0 := by
  -- There is one outcome of the checks, with the evidence of the leaf anchored alone.
  rw [cmdVerify_eq hread hparse, verifyBundle, Result.bind_eq_ok_iff] at hok
  obtain ⟨⟨recomputedLeaf, ev⟩, hcheck, -⟩ := hok
  obtain ⟨-, -, root, siblings, hdecodes, -, -, hmerkleRoot, hindex⟩ :=
    checkBundle_eq_ok_iff.1 hcheck
  rw [hdecodes.leaf_eq, ← hmerkleRoot]
  constructor
  · rintro ⟨_, ev', hcheck', hroot, hconfirmed⟩
    rw [hcheck] at hcheck'
    cases hcheck'
    exact ⟨hroot.symm, hconfirmed.symm.trans hindex⟩
  · rintro ⟨hroot, hzero⟩
    exact ⟨recomputedLeaf, ev, hcheck, hroot.symm, hindex.trans hzero.symm⟩

/-- A file system with the bundle of the last of three records only. -/
def readLast (path : String) : Except String String :=
  if path = "bundle.json" then .ok lastFile else .error "No such file or directory (os error 2)"

theorem cmdVerify_last : ∃ lines,
    cmdVerify Sha256.digest Hex.decode outOfRange readLast parseLast "bundle.json" =
      .ok lines := by
  have hread : readLast "bundle.json" = .ok lastFile := if_pos rfl
  rw [cmdVerify_eq hread (if_pos rfl), ← bundleOf_last]
  exact verifyBundle_bundleOf Hex.hexCodec rfl (by decide) outOfRange

theorem evidence_iff_last :
    EvidenceConfirms Sha256.digest Hex.decode outOfRange lastBundle ↔
      displayToInternal Hex.decode lastBundle.leafDisplayBe =
          displayToInternal Hex.decode lastBundle.rootDisplayBe ∧
        lastBundle.leafIndex = 0 := by
  obtain ⟨lines, hok⟩ := cmdVerify_last
  exact evidence_iff Sha256.digest Hex.decode outOfRange readLast parseLast "bundle.json" lastFile
    lastBundle lines (if_pos rfl) (if_pos rfl) hok

/-- For the last of three records, the evidence is about the index `0` instead of `2`. -/
theorem last_not_confirmed :
    ¬∀ (readToString : String → Except String String)
      (bundleFromStr : String → Except String ProofBundle) (bundlePath raw : String)
      (bundle : ProofBundle) (lines : List String), readToString bundlePath = .ok raw →
      bundleFromStr raw = .ok bundle →
      cmdVerify Sha256.digest Hex.decode outOfRange readToString bundleFromStr bundlePath =
        .ok lines →
      EvidenceConfirms Sha256.digest Hex.decode outOfRange bundle := by
  intro hall
  obtain ⟨lines, hok⟩ := cmdVerify_last
  obtain ⟨_, ev, hcheck, -, hindex⟩ := hall readLast parseLast "bundle.json" lastFile lastBundle
    lines (if_pos rfl) (if_pos rfl) hok
  obtain ⟨-, -, root, siblings, -, -, -, -, hzero⟩ := checkBundle_eq_ok_iff.1 hcheck
  rw [hzero] at hindex
  exact absurd hindex (by decide)

end Vaa.Cli
