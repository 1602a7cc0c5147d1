import Vaa.Cli.Anchor
import Vaa.Failure

/-!
# How the commands fail

`vaa anchor`, `vaa prove`, `vaa verify` and `vaa query` never panic, whatever the files
hold, and each of their errors names the first step that fails: a file that cannot be read
or parsed, the first entry that does not decode, a check that does not pass
(`verify_fails_iff`, `commands_fail_iff`). What comes after the checks cannot fail: not the
audit of a bundle whose record hashes to its leaf, nor the tree, the store and the
verification of records that have been loaded.
-/

namespace Vaa.Cli

open PairTree Merkle ProofStore

variable {sha256 : Bytes → Hash} {hexEncode : Bytes → String}
  {hexDecode : String → Except String Bytes} {tryFromIntError : String}
  {readToString : String → Except String String} {path : String}

/-! ## Hashes -/

/-- The errors of `display_to_internal`. -/
inductive DisplayError (hexDecode : String → Except String Bytes) (s : String) :
    AnyhowError → Prop
  | hex {text : String} : hexDecode (trim s) = .error text →
      DisplayError hexDecode s ⟨["invalid hex", text]⟩
  | length {bytes : Bytes} : hexDecode (trim s) = .ok bytes → bytes.length ≠ 32 →
      DisplayError hexDecode s ⟨[s!"expected 32 bytes, got {bytes.length}"]⟩

theorem displayToInternal_eq_error_iff {s : String} {fault : Fault AnyhowError} :
    displayToInternal hexDecode s = .error fault ↔
      ∃ e, fault = .err e ∧ DisplayError hexDecode s e := by
  rw [displayToInternal, Result.bind_eq_error_iff]
  constructor
  · intro h
    rcases h with hhex | ⟨bytes, hbytes, hrest⟩
    · obtain ⟨_, hforeign, rfl⟩ := Result.context_eq_error_iff.1 hhex
      obtain ⟨text, htext, rfl⟩ := Result.foreign_eq_error_iff.1 hforeign
      exact ⟨_, rfl, .hex htext⟩
    · rw [Result.context_eq_ok_iff, Result.foreign_eq_ok_iff] at hbytes
      by_cases hlen : bytes.length = 32
      · -- The copy is of the length of its target, and does not panic.
        rw [if_neg (not_not.2 hlen), copyFromSlice, dif_pos (by rwa [List.length_reverse])] at hrest
        cases hrest
      · rw [if_pos hlen, Result.bail_eq_error_iff] at hrest
        exact ⟨_, hrest, .length hbytes hlen⟩
  · rintro ⟨e, rfl, he⟩
    cases he with
    | hex htext =>
      exact .inl (Result.context_eq_error_iff.2
        ⟨_, Result.foreign_eq_error_iff.2 ⟨_, htext, rfl⟩, rfl⟩)
    | length hbytes hlen =>
      refine .inr ⟨_, Result.context_eq_ok_iff.2 (Result.foreign_eq_ok_iff.2 hbytes), ?_⟩
      rw [if_pos hlen]
      rfl

/-- The errors of a list of hashes: the one of the first entry that is not a hash, after
    the context of its index. -/
inductive EntryError (hexDecode : String → Except String Bytes) (text : String → ℕ → String)
    (entries : List String) : AnyhowError → Prop
  | entry {i : ℕ} {s : String} {e : AnyhowError} : entries[i]? = some s →
      (∀ j < i, ∃ t h, entries[j]? = some t ∧ displayToInternal hexDecode t = .ok h) →
      DisplayError hexDecode s e → EntryError hexDecode text entries ⟨text s i :: e.chain⟩

theorem mapM_displayToInternal_eq_error_iff (text : String → ℕ → String) {entries : List String}
    {fault : Fault AnyhowError} :
    (entries.zipIdx.mapM fun p => (displayToInternal hexDecode p.1).context (text p.1 p.2)) =
      .error fault ↔ ∃ e, fault = .err e ∧ EntryError hexDecode text entries e := by
  simp only [Result.mapM_zipIdx_eq_error_iff, Result.context_eq_error_iff,
    Result.context_eq_ok_iff, displayToInternal_eq_error_iff]
  constructor
  · rintro ⟨i, s, hs, hbefore, _, ⟨e, rfl, he⟩, rfl⟩
    exact ⟨_, rfl, .entry hs hbefore he⟩
  · rintro ⟨_, rfl, hs, hbefore, he⟩
    exact ⟨_, _, hs, hbefore, _, ⟨_, rfl, he⟩, rfl⟩

/-! ## `vaa verify` -/

/-- The version and the proof of a bundle are read. -/
structure ReadsProof (hexDecode : String → Except String Bytes) (bundle : ProofBundle)
    (leaf root : Hash) (siblings : List Hash) : Prop where
  version_eq : bundle.version = 2
  leaf_eq : displayToInternal hexDecode bundle.leafDisplayBe = .ok leaf
  root_eq : displayToInternal hexDecode bundle.rootDisplayBe = .ok root
  siblings_eq : decodeSiblings hexDecode bundle.siblingsDisplayBe = .ok siblings

/-- The errors of `vaa verify` for a parsed bundle, in the order of its checks. -/
inductive BundleError (sha256 : Bytes → Hash) (hexDecode : String → Except String Bytes)
    (tryFromIntError : String) (bundle : ProofBundle) : AnyhowError → Prop
  | version : bundle.version ≠ 2 → BundleError sha256 hexDecode tryFromIntError bundle
      ⟨[s!"unsupported bundle version: {bundle.version} (expected 2)"]⟩
  | leaf {e : AnyhowError} : bundle.version = 2 →
      DisplayError hexDecode bundle.leafDisplayBe e →
      BundleError sha256 hexDecode tryFromIntError bundle e
  | root {leaf : Hash} {e : AnyhowError} : bundle.version = 2 →
      displayToInternal hexDecode bundle.leafDisplayBe = .ok leaf →
      DisplayError hexDecode bundle.rootDisplayBe e →
      BundleError sha256 hexDecode tryFromIntError bundle e
  | sibling {leaf root : Hash} {e : AnyhowError} : bundle.version = 2 →
      displayToInternal hexDecode bundle.leafDisplayBe = .ok leaf →
      displayToInternal hexDecode bundle.rootDisplayBe = .ok root →
      EntryError hexDecode (fun _ i => s!"sibling #{i}") bundle.siblingsDisplayBe e →
      BundleError sha256 hexDecode tryFromIntError bundle e
  | inclusion {leaf root : Hash} {siblings : List Hash} :
      ReadsProof hexDecode bundle leaf root siblings →
      walk (Merkle.hashPair sha256) leaf bundle.leafIndex siblings ≠ root →
      BundleError sha256 hexDecode tryFromIntError bundle
        ⟨["merkle inclusion failed", MerkleError.rootMismatch.text]⟩
  | record {leaf root : Hash} {siblings : List Hash} {text : String} :
      ReadsProof hexDecode bundle leaf root siblings →
      walk (Merkle.hashPair sha256) leaf bundle.leafIndex siblings = root →
      hexDecode (trim bundle.disclosedRecordHex) = .error text →
      BundleError sha256 hexDecode tryFromIntError bundle
        ⟨["disclosed record hex invalid", text]⟩
  | hash {leaf root : Hash} {siblings : List Hash} {disclosed : Bytes} :
      ReadsProof hexDecode bundle leaf root siblings →
      walk (Merkle.hashPair sha256) leaf bundle.leafIndex siblings = root →
      hexDecode (trim bundle.disclosedRecordHex) = .ok disclosed →
      Bsv.doubleSha256 sha256 disclosed ≠ leaf →
      BundleError sha256 hexDecode tryFromIntError bundle
        ⟨["disclosed record does not hash to the bundle's leaf"]⟩
  | index {leaf root : Hash} {siblings : List Hash} {disclosed : Bytes} :
      ReadsProof hexDecode bundle leaf root siblings →
      walk (Merkle.hashPair sha256) leaf bundle.leafIndex siblings = root →
      hexDecode (trim bundle.disclosedRecordHex) = .ok disclosed →
      Bsv.doubleSha256 sha256 disclosed = leaf → 2 ^ 32 ≤ bundle.leafIndex →
      BundleError sha256 hexDecode tryFromIntError bundle
        ⟨["leaf index does not fit u32", tryFromIntError]⟩

theorem u32TryFrom_eq_error_iff {n : ℕ} {fault : Fault AnyhowError} :
    u32TryFrom tryFromIntError n = .error fault ↔
      2 ^ 32 ≤ n ∧ fault = .err ⟨[tryFromIntError]⟩ := by
  rw [u32TryFrom]
  split
  · next hlt => exact iff_of_false Result.ok_ne_error fun h => absurd hlt (not_lt.2 h.1)
  · next hle => rw [Result.bail_eq_error_iff, and_iff_right (not_lt.1 hle)]

theorem decodeSiblings_eq_error_iff {siblingsDisplayBe : List String}
    {fault : Fault AnyhowError} : decodeSiblings hexDecode siblingsDisplayBe = .error fault ↔
      ∃ e, fault = .err e ∧
        EntryError hexDecode (fun _ i => s!"sibling #{i}") siblingsDisplayBe e :=
  mapM_displayToInternal_eq_error_iff fun _ i => s!"sibling #{i}"

theorem inclusion_eq_error_iff {proof : MerkleProof} {leaf root : Hash}
    {fault : Fault AnyhowError} :
    ((proof.verify (Merkle.hashPair sha256) leaf root).mapErr ofMerkle).context
        "merkle inclusion failed" = .error fault ↔
      walk (Merkle.hashPair sha256) leaf proof.leafIndex proof.siblings ≠ root ∧
        fault = .err ⟨["merkle inclusion failed", MerkleError.rootMismatch.text]⟩ := by
  rw [MerkleProof.verify, reconstructRoot_eq_walk]
  split
  · next heq => exact iff_of_false Result.ok_ne_error fun h => h.1 heq
  · next hne =>
    rw [and_iff_right hne, eq_comm]
    exact ⟨fun h => Except.error.inj h, fun h => congrArg Except.error h⟩

/-- The checks of `cmd_verify` on a bundle of the version `2`, one by one. -/
theorem checkBundle_stages {bundle : ProofBundle} {fault : Fault AnyhowError}
    (hversion : bundle.version = 2) :
    checkBundle sha256 hexDecode tryFromIntError bundle = .error fault ↔
      (∃ e, fault = .err e ∧ DisplayError hexDecode bundle.leafDisplayBe e) ∨
      ∃ leaf, displayToInternal hexDecode bundle.leafDisplayBe = .ok leaf ∧
      ((∃ e, fault = .err e ∧ DisplayError hexDecode bundle.rootDisplayBe e) ∨
      ∃ root, displayToInternal hexDecode bundle.rootDisplayBe = .ok root ∧
      ((∃ e, fault = .err e ∧
        EntryError hexDecode (fun _ i => s!"sibling #{i}") bundle.siblingsDisplayBe e) ∨
      ∃ siblings, decodeSiblings hexDecode bundle.siblingsDisplayBe = .ok siblings ∧
      (walk (Merkle.hashPair sha256) leaf bundle.leafIndex siblings ≠ root ∧
        fault = .err ⟨["merkle inclusion failed", MerkleError.rootMismatch.text]⟩ ∨
      walk (Merkle.hashPair sha256) leaf bundle.leafIndex siblings = root ∧
      ((∃ text, hexDecode (trim bundle.disclosedRecordHex) = .error text ∧
        fault = .err ⟨["disclosed record hex invalid", text]⟩) ∨
      ∃ disclosed, hexDecode (trim bundle.disclosedRecordHex) = .ok disclosed ∧
      (Bsv.doubleSha256 sha256 disclosed ≠ leaf ∧
        fault = .err ⟨["disclosed record does not hash to the bundle's leaf"]⟩ ∨
      Bsv.doubleSha256 sha256 disclosed = leaf ∧ 2 ^ 32 ≤ bundle.leafIndex ∧
        fault = .err ⟨["leaf index does not fit u32", tryFromIntError]⟩))))) := by
  -- Each step peels one check off: its failure on the left, the rest of the command after
  -- its success on the right.
  rw [checkBundle, if_neg (not_not.2 hversion), Result.bind_eq_error_iff,
    displayToInternal_eq_error_iff]
  refine or_congr_right (exists_congr fun leaf => and_congr_right fun _ => ?_)
  rw [Result.bind_eq_error_iff, displayToInternal_eq_error_iff]
  refine or_congr_right (exists_congr fun root => and_congr_right fun _ => ?_)
  rw [Result.bind_eq_error_iff, decodeSiblings_eq_error_iff]
  refine or_congr_right (exists_congr fun siblings => and_congr_right fun _ => ?_)
  refine Result.unit_bind_eq_error_iff.trans (or_congr inclusion_eq_error_iff ?_)
  rw [Result.context_eq_ok_iff, Result.mapErr_eq_ok_iff, Merkle.verify_eq_ok_iff]
  refine and_congr_right fun _ => Result.bind_eq_error_iff.trans
    (or_congr Result.context_foreign_eq_error_iff (exists_congr fun disclosed => ?_))
  rw [Result.context_eq_ok_iff, Result.foreign_eq_ok_iff]
  refine and_congr_right fun _ => ?_
  by_cases hrecord : Bsv.doubleSha256 sha256 disclosed = leaf
  · rw [or_iff_right fun h => h.1 hrecord, and_iff_right hrecord, if_neg (not_not.2 hrecord)]
    -- The leaf is anchored alone, and its audit passes.
    have hanchor (key : IndexKey) :
        ((ProofStore.new 0).anchor sha256 key [leaf] 0).2 ≠ .error .panicked := by
      rw [anchor_eq _ _ _ (by simp)]
      simp
    simp only [Result.bind_eq_error_iff, hanchor, if_false, audit_single hrecord]
    constructor
    · intro h
      rcases h with hindex | ⟨blockPosition, -, hev | ⟨_, -, hreturn⟩⟩
      · obtain ⟨_, hword, rfl⟩ := Result.context_eq_error_iff.1 hindex
        obtain ⟨hle, rfl⟩ := u32TryFrom_eq_error_iff.1 hword
        exact ⟨hle, rfl⟩
      · cases hev
      · cases hreturn
    · rintro ⟨hle, rfl⟩
      exact .inl (Result.context_eq_error_iff.2 ⟨_, u32TryFrom_eq_error_iff.2 ⟨hle, rfl⟩, rfl⟩)
  · rw [or_iff_left fun h => hrecord h.1, and_iff_right hrecord, if_pos hrecord,
      Result.bail_eq_error_iff]

/-- The checks fail with the error of the first one that fails. -/
theorem checkBundle_eq_error_iff {bundle : ProofBundle} {fault : Fault AnyhowError} :
    checkBundle sha256 hexDecode tryFromIntError bundle = .error fault ↔
      ∃ e, fault = .err e ∧ BundleError sha256 hexDecode tryFromIntError bundle e := by
  by_cases hversion : bundle.version = 2
  · -- The stages and the errors are the same cases, in the same order.
    rw [checkBundle_stages hversion]
    constructor
    · intro h
      rcases h with ⟨e, rfl, he⟩ | ⟨leaf, hleaf, ⟨e, rfl, he⟩ | ⟨root, hroot, ⟨e, rfl, he⟩ |
        ⟨siblings, hsiblings, ⟨hwalk, rfl⟩ | ⟨hwalk, ⟨text, htext, rfl⟩ |
        ⟨disclosed, hdisclosed, ⟨hhash, rfl⟩ | ⟨hhash, hindex, rfl⟩⟩⟩⟩⟩⟩
      · exact ⟨e, rfl, .leaf hversion he⟩
      · exact ⟨e, rfl, .root hversion hleaf he⟩
      · exact ⟨e, rfl, .sibling hversion hleaf hroot he⟩
      · exact ⟨_, rfl, .inclusion ⟨hversion, hleaf, hroot, hsiblings⟩ hwalk⟩
      · exact ⟨_, rfl, .record ⟨hversion, hleaf, hroot, hsiblings⟩ hwalk htext⟩
      · exact ⟨_, rfl, .hash ⟨hversion, hleaf, hroot, hsiblings⟩ hwalk hdisclosed hhash⟩
      · exact ⟨_, rfl, .index ⟨hversion, hleaf, hroot, hsiblings⟩ hwalk hdisclosed hhash hindex⟩
    · rintro ⟨e, rfl, he⟩
      cases he with
      | version hne => exact absurd hversion hne
      | leaf _ he => exact .inl ⟨_, rfl, he⟩
      | root _ hleaf he => exact .inr ⟨_, hleaf, .inl ⟨_, rfl, he⟩⟩
      | sibling _ hleaf hroot he => exact .inr ⟨_, hleaf, .inr ⟨_, hroot, .inl ⟨_, rfl, he⟩⟩⟩
      | inclusion h hwalk =>
        exact .inr ⟨_, h.leaf_eq, .inr ⟨_, h.root_eq, .inr ⟨_, h.siblings_eq, .inl ⟨hwalk, rfl⟩⟩⟩⟩
      | record h hwalk htext =>
        exact .inr ⟨_, h.leaf_eq, .inr ⟨_, h.root_eq, .inr ⟨_, h.siblings_eq,
          .inr ⟨hwalk, .inl ⟨_, htext, rfl⟩⟩⟩⟩⟩
      | hash h hwalk hdisclosed hhash =>
        exact .inr ⟨_, h.leaf_eq, .inr ⟨_, h.root_eq, .inr ⟨_, h.siblings_eq,
          .inr ⟨hwalk, .inr ⟨_, hdisclosed, .inl ⟨hhash, rfl⟩⟩⟩⟩⟩⟩
      | index h hwalk hdisclosed hhash hindex =>
        exact .inr ⟨_, h.leaf_eq, .inr ⟨_, h.root_eq, .inr ⟨_, h.siblings_eq,
          .inr ⟨hwalk, .inr ⟨_, hdisclosed, .inr ⟨hhash, hindex, rfl⟩⟩⟩⟩⟩⟩
  · rw [checkBundle, if_pos hversion, Result.bail_eq_error_iff]
    constructor
    · exact fun hfault => ⟨_, hfault, .version hversion⟩
    · rintro ⟨e, rfl, he⟩
      cases he with
      | version => rfl
      | leaf heq | root heq | sibling heq => exact absurd heq hversion
      | inclusion h | record h | hash h | index h => exact absurd h.version_eq hversion

/-- `vaa verify` fails on a parsed bundle exactly as its checks do. -/
theorem verifyBundle_eq_error_iff {bundle : ProofBundle} {fault : Fault AnyhowError} :
    verifyBundle sha256 hexDecode tryFromIntError bundle = .error fault ↔
      checkBundle sha256 hexDecode tryFromIntError bundle = .error fault := by
  rw [verifyBundle, Result.bind_eq_error_iff]
  refine or_iff_left ?_
  rintro ⟨_, -, hprinted⟩
  cases hprinted

/-- The errors of `vaa verify`. -/
inductive VerifyError (sha256 : Bytes → Hash) (hexDecode : String → Except String Bytes)
    (tryFromIntError : String) (readToString : String → Except String String)
    (bundleFromStr : String → Except String ProofBundle) (path : String) : AnyhowError → Prop
  | read {text : String} : readToString path = .error text →
      VerifyError sha256 hexDecode tryFromIntError readToString bundleFromStr path
        ⟨[s!"reading bundle {path}", text]⟩
  | parse {raw text : String} : readToString path = .ok raw → bundleFromStr raw = .error text →
      VerifyError sha256 hexDecode tryFromIntError readToString bundleFromStr path
        ⟨["parsing bundle JSON", text]⟩
  | bundle {raw : String} {bundle : ProofBundle} {e : AnyhowError} :
      readToString path = .ok raw → bundleFromStr raw = .ok bundle →
      BundleError sha256 hexDecode tryFromIntError bundle e →
      VerifyError sha256 hexDecode tryFromIntError readToString bundleFromStr path e

/-- `vaa verify` never panics, and fails exactly with the error of the first step that
    fails; the audit of the record, its last step, never does. -/
theorem verify_fails_iff (sha256 : Bytes → Hash) (hexDecode : String → Except String Bytes)
    (tryFromIntError : String) (readToString : String → Except String String)
    (bundleFromStr : String → Except String ProofBundle) (path : String)
    (fault : Fault AnyhowError) :
    cmdVerify sha256 hexDecode tryFromIntError readToString bundleFromStr path = .error fault ↔
      ∃ e, fault = .err e ∧
        VerifyError sha256 hexDecode tryFromIntError readToString bundleFromStr path e := by
  simp only [cmdVerify, Result.bind_eq_error_iff, Result.context_foreign_eq_error_iff,
    Result.context_eq_ok_iff, Result.foreign_eq_ok_iff, verifyBundle_eq_error_iff,
    checkBundle_eq_error_iff]
  constructor
  · intro h
    rcases h with ⟨text, htext, rfl⟩ | ⟨raw, hraw, ⟨text, htext, rfl⟩ |
      ⟨bundle, hbundle, e, rfl, he⟩⟩
    · exact ⟨_, rfl, .read htext⟩
    · exact ⟨_, rfl, .parse hraw htext⟩
    · exact ⟨e, rfl, .bundle hraw hbundle he⟩
  · rintro ⟨e, rfl, he⟩
    cases he with
    | read htext => exact .inl ⟨_, htext, rfl⟩
    | parse hraw htext => exact .inr ⟨_, hraw, .inl ⟨_, htext, rfl⟩⟩
    | bundle hraw hbundle he => exact .inr ⟨_, hraw, .inr ⟨_, hbundle, e, rfl, he⟩⟩

/-! ## Loading -/

/-- The errors of `load_leaves`. -/
inductive LoadLeavesError (hexDecode : String → Except String Bytes)
    (readToString : String → Except String String)
    (leavesFromStr : String → Except String LeavesFile) (path : String) : AnyhowError → Prop
  | read {text : String} : readToString path = .error text →
      LoadLeavesError hexDecode readToString leavesFromStr path
        ⟨[s!"reading leaves file {path}", text]⟩
  | parse {raw text : String} : readToString path = .ok raw → leavesFromStr raw = .error text →
      LoadLeavesError hexDecode readToString leavesFromStr path ⟨["parsing leaves JSON", text]⟩
  | leaf {raw : String} {file : LeavesFile} {e : AnyhowError} :
      readToString path = .ok raw → leavesFromStr raw = .ok file →
      EntryError hexDecode (fun s i => s!"leaf #{i}: {s}") file.leavesDisplayBe e →
      LoadLeavesError hexDecode readToString leavesFromStr path e

theorem loadLeaves_eq_error_iff {leavesFromStr : String → Except String LeavesFile}
    {fault : Fault AnyhowError} :
    loadLeaves hexDecode readToString leavesFromStr path = .error fault ↔
      ∃ e, fault = .err e ∧ LoadLeavesError hexDecode readToString leavesFromStr path e := by
  have hentries (entries : List String) :
      (entries.zipIdx.mapM fun p =>
        (displayToInternal hexDecode p.1).context s!"leaf #{p.2}: {p.1}") = .error fault ↔
        ∃ e, fault = .err e ∧ EntryError hexDecode (fun s i => s!"leaf #{i}: {s}") entries e :=
    mapM_displayToInternal_eq_error_iff fun s i => s!"leaf #{i}: {s}"
  simp only [loadLeaves, Result.bind_eq_error_iff, Result.context_foreign_eq_error_iff,
    Result.context_eq_ok_iff, Result.foreign_eq_ok_iff, hentries]
  constructor
  · intro h
    rcases h with ⟨text, htext, rfl⟩ | ⟨raw, hraw, ⟨text, htext, rfl⟩ | ⟨file, hfile, e, rfl, he⟩⟩
    · exact ⟨_, rfl, .read htext⟩
    · exact ⟨_, rfl, .parse hraw htext⟩
    · exact ⟨e, rfl, .leaf hraw hfile he⟩
  · rintro ⟨e, rfl, he⟩
    cases he with
    | read htext => exact .inl ⟨_, htext, rfl⟩
    | parse hraw htext => exact .inr ⟨_, hraw, .inl ⟨_, htext, rfl⟩⟩
    | leaf hraw hfile he => exact .inr ⟨_, hraw, .inr ⟨_, hfile, e, rfl, he⟩⟩

/-- The errors of `load_records`. -/
inductive LoadRecordsError (hexDecode : String → Except String Bytes)
    (readToString : String → Except String String)
    (recordsFromStr : String → Except String RecordsFile) (path : String) : AnyhowError → Prop
  | read {text : String} : readToString path = .error text →
      LoadRecordsError hexDecode readToString recordsFromStr path
        ⟨[s!"reading records file {path}", text]⟩
  | parse {raw text : String} : readToString path = .ok raw → recordsFromStr raw = .error text →
      LoadRecordsError hexDecode readToString recordsFromStr path
        ⟨["parsing records JSON", text]⟩
  | record {raw s text : String} {file : RecordsFile} {i : ℕ} :
      readToString path = .ok raw → recordsFromStr raw = .ok file →
      file.recordsHex[i]? = some s →
      (∀ j < i, ∃ t bytes, file.recordsHex[j]? = some t ∧ hexDecode (trim t) = .ok bytes) →
      hexDecode (trim s) = .error text →
      LoadRecordsError hexDecode readToString recordsFromStr path ⟨[s!"record #{i} hex", text]⟩

theorem loadRecords_eq_error_iff {recordsFromStr : String → Except String RecordsFile}
    {fault : Fault AnyhowError} :
    loadRecords sha256 hexDecode readToString recordsFromStr path = .error fault ↔
      ∃ e, fault = .err e ∧ LoadRecordsError hexDecode readToString recordsFromStr path e := by
  -- A turn fails as the decoding of its entry does, whatever has been loaded so far.
  have hturn (loaded : List Bytes × List Hash) (p : String × ℕ) (fault : Fault AnyhowError) :
      pushRecord sha256 hexDecode loaded p = .error fault ↔
        (Result.foreign (hexDecode (trim p.1))).context s!"record #{p.2} hex" = .error fault := by
    rw [pushRecord, Result.bind_eq_error_iff, or_iff_left]
    rintro ⟨_, -, hreturn⟩
    cases hreturn
  simp only [loadRecords, Result.bind_eq_error_iff, Result.context_foreign_eq_error_iff,
    Result.context_eq_ok_iff, Result.foreign_eq_ok_iff, Result.foldlM_eq_error_iff_mapM hturn,
    Result.mapM_zipIdx_eq_error_iff]
  constructor
  · intro h
    rcases h with ⟨text, htext, rfl⟩ | ⟨raw, hraw, ⟨text, htext, rfl⟩ |
      ⟨file, hfile, i, s, hs, hbefore, text, htext, rfl⟩⟩
    · exact ⟨_, rfl, .read htext⟩
    · exact ⟨_, rfl, .parse hraw htext⟩
    · exact ⟨_, rfl, .record hraw hfile hs hbefore htext⟩
  · rintro ⟨e, rfl, he⟩
    cases he with
    | read htext => exact .inl ⟨_, htext, rfl⟩
    | parse hraw htext => exact .inr ⟨_, hraw, .inl ⟨_, htext, rfl⟩⟩
    | record hraw hfile hs hbefore htext =>
      exact .inr ⟨_, hraw, .inr ⟨_, hfile, _, _, hs, hbefore, _, htext, rfl⟩⟩

/-! ## `vaa anchor`, `vaa prove` and `vaa query` -/

/-- The errors of `vaa anchor`. -/
inductive AnchorError (hexDecode : String → Except String Bytes)
    (readToString : String → Except String String)
    (leavesFromStr : String → Except String LeavesFile) (path : String) : AnyhowError → Prop
  | load {e : AnyhowError} : LoadLeavesError hexDecode readToString leavesFromStr path e →
      AnchorError hexDecode readToString leavesFromStr path e
  | empty : loadLeaves hexDecode readToString leavesFromStr path = .ok [] →
      AnchorError hexDecode readToString leavesFromStr path ⟨[MerkleError.emptyTree.text]⟩

theorem cmdAnchor_eq_error_iff {leavesFromStr : String → Except String LeavesFile}
    {fault : Fault AnyhowError} :
    cmdAnchor sha256 hexEncode hexDecode readToString leavesFromStr path = .error fault ↔
      ∃ e, fault = .err e ∧ AnchorError hexDecode readToString leavesFromStr path e := by
  have hroot (leaves : List Hash) : (merkleRoot (Merkle.hashPair sha256) leaves).mapErr ofMerkle =
      .error fault ↔ leaves = [] ∧ fault = .err (ofMerkle .emptyTree) := by
    by_cases hne : leaves = []
    · rw [hne, merkleRoot_nil, and_iff_right rfl, eq_comm]
      exact ⟨fun h => Except.error.inj h, fun h => congrArg Except.error h⟩
    · rw [merkleRoot_eq _ hne]
      exact iff_of_false Result.ok_ne_error fun h => hne h.1
  simp only [cmdAnchor, Result.bind_eq_error_iff, loadLeaves_eq_error_iff, hroot]
  constructor
  · intro h
    rcases h with ⟨e, rfl, he⟩ | ⟨leaves, hload, ⟨rfl, rfl⟩ | ⟨_, -, hreturn⟩⟩
    · exact ⟨e, rfl, .load he⟩
    · exact ⟨_, rfl, .empty hload⟩
    · cases hreturn
  · rintro ⟨e, rfl, he⟩
    cases he with
    | load he => exact .inl ⟨e, rfl, he⟩
    | empty hload => exact .inr ⟨[], hload, .inl ⟨rfl, rfl⟩⟩

/-- The errors of `vaa prove`. -/
inductive ProveError (sha256 : Bytes → Hash) (hexEncode : Bytes → String)
    (hexDecode : String → Except String Bytes) (readToString : String → Except String String)
    (recordsFromStr : String → Except String RecordsFile)
    (toStringPretty : ProofBundle → Except String String)
    (write : String → String → Except String Unit) (path : String) (index : ℕ)
    (outPath : String) : AnyhowError → Prop
  | load {e : AnyhowError} : LoadRecordsError hexDecode readToString recordsFromStr path e →
      ProveError sha256 hexEncode hexDecode readToString recordsFromStr toStringPretty write path
        index outPath e
  | range {records : List Bytes} {leaves : List Hash} :
      loadRecords sha256 hexDecode readToString recordsFromStr path = .ok (records, leaves) →
      records.length ≤ index →
      ProveError sha256 hexEncode hexDecode readToString recordsFromStr toStringPretty write path
        index outPath ⟨[s!"index {index} out of range for {records.length} records"]⟩
  | pretty {records : List Bytes} {leaves : List Hash} {record : Bytes} {text : String} :
      loadRecords sha256 hexDecode readToString recordsFromStr path = .ok (records, leaves) →
      records[index]? = some record →
      toStringPretty (bundleOf sha256 hexEncode records index record) = .error text →
      ProveError sha256 hexEncode hexDecode readToString recordsFromStr toStringPretty write path
        index outPath ⟨[text]⟩
  | write {records : List Bytes} {leaves : List Hash} {record : Bytes} {pretty text : String} :
      loadRecords sha256 hexDecode readToString recordsFromStr path = .ok (records, leaves) →
      records[index]? = some record →
      toStringPretty (bundleOf sha256 hexEncode records index record) = .ok pretty →
      write outPath pretty = .error text →
      ProveError sha256 hexEncode hexDecode readToString recordsFromStr toStringPretty write path
        index outPath ⟨[s!"writing bundle to {outPath}", text]⟩

/-- The errors of `vaa query`. -/
inductive QueryError (sha256 : Bytes → Hash) (hexDecode : String → Except String Bytes)
    (tryFromIntError : String) (readToString : String → Except String String)
    (recordsFromStr : String → Except String RecordsFile) (path : String) (index : ℕ) :
    AnyhowError → Prop
  | load {e : AnyhowError} : LoadRecordsError hexDecode readToString recordsFromStr path e →
      QueryError sha256 hexDecode tryFromIntError readToString recordsFromStr path index e
  | range {records : List Bytes} {leaves : List Hash} :
      loadRecords sha256 hexDecode readToString recordsFromStr path = .ok (records, leaves) →
      records.length ≤ index →
      QueryError sha256 hexDecode tryFromIntError readToString recordsFromStr path index
        ⟨[s!"index {index} out of range for {records.length} records"]⟩
  | word {records : List Bytes} {leaves : List Hash} :
      loadRecords sha256 hexDecode readToString recordsFromStr path = .ok (records, leaves) →
      index < records.length → 2 ^ 32 ≤ index →
      QueryError sha256 hexDecode tryFromIntError readToString recordsFromStr path index
        ⟨["index does not fit u32", tryFromIntError]⟩

section Records

variable {recordsFromStr : String → Except String RecordsFile} {index : ℕ}
  {fault : Fault AnyhowError}

/-- The bundle of a loaded list fails to be built exactly when there is no such record. -/
theorem proveBundle_eq_error_iff {records : List Bytes} :
    proveBundle sha256 hexEncode records (leavesOf sha256 records) index = .error fault ↔
      records.length ≤ index ∧
        fault = .err ⟨[s!"index {index} out of range for {records.length} records"]⟩ := by
  by_cases hlen : records.length ≤ index
  · rw [proveBundle, if_pos hlen, Result.bail_eq_error_iff, and_iff_right hlen]
  · rw [proveBundle_eq sha256 hexEncode (List.getElem?_eq_getElem (not_le.1 hlen))]
    exact iff_of_false Result.ok_ne_error fun h => hlen h.1

theorem cmdProve_eq_error_iff {toStringPretty : ProofBundle → Except String String}
    {write : String → String → Except String Unit} {outPath : String} :
    cmdProve sha256 hexEncode hexDecode readToString recordsFromStr toStringPretty write path
        index outPath = .error fault ↔
      ∃ e, fault = .err e ∧ ProveError sha256 hexEncode hexDecode readToString recordsFromStr
        toStringPretty write path index outPath e := by
  rw [cmdProve, Result.bind_eq_error_iff, loadRecords_eq_error_iff]
  constructor
  · intro h
    rcases h with ⟨e, rfl, he⟩ | ⟨⟨records, leaves⟩, hload, hrest⟩
    · exact ⟨e, rfl, .load he⟩
    · obtain rfl := loadRecords_leaves hload
      -- The three calls that are left: building the bundle, serialising it, writing it.
      rcases Result.bind_eq_error_iff.1 hrest with hbundle | ⟨bundle, hbundle, hrest⟩
      · obtain ⟨hlen, rfl⟩ := proveBundle_eq_error_iff.1 hbundle
        exact ⟨_, rfl, .range hload hlen⟩
      · have hlt : index < records.length := by
          by_contra hlen
          rw [proveBundle, if_pos (not_lt.1 hlen)] at hbundle
          cases hbundle
        have hrecord := List.getElem?_eq_getElem hlt
        rw [proveBundle_eq sha256 hexEncode hrecord] at hbundle
        obtain rfl := Except.ok.inj hbundle
        rcases Result.bind_eq_error_iff.1 hrest with hpretty | ⟨pretty, hpretty, hrest⟩
        · obtain ⟨text, htext, rfl⟩ := Result.foreign_eq_error_iff.1 hpretty
          exact ⟨_, rfl, .pretty hload hrecord htext⟩
        · rw [Result.foreign_eq_ok_iff] at hpretty
          rcases Result.unit_bind_eq_error_iff.1 hrest with hwrite | ⟨-, hreturn⟩
          · obtain ⟨text, htext, rfl⟩ := Result.context_foreign_eq_error_iff.1 hwrite
            exact ⟨_, rfl, .write hload hrecord hpretty htext⟩
          · cases hreturn
  · rintro ⟨e, rfl, he⟩
    cases he with
    | load he => exact .inl ⟨_, rfl, he⟩
    | range hload hlen =>
      refine .inr ⟨_, hload, Result.bind_eq_error_iff.2 (.inl ?_)⟩
      rw [loadRecords_leaves hload]
      exact proveBundle_eq_error_iff.2 ⟨hlen, rfl⟩
    | pretty hload hrecord htext =>
      refine .inr ⟨_, hload, Result.bind_eq_error_iff.2 (.inr ⟨_, ?_,
        Result.bind_eq_error_iff.2 (.inl (Result.foreign_eq_error_iff.2 ⟨_, htext, rfl⟩))⟩)⟩
      rw [loadRecords_leaves hload]
      exact proveBundle_eq sha256 hexEncode hrecord
    | write hload hrecord hpretty htext =>
      refine .inr ⟨_, hload, Result.bind_eq_error_iff.2 (.inr ⟨_, ?_,
        Result.bind_eq_error_iff.2 (.inr ⟨_, Result.foreign_eq_ok_iff.2 hpretty,
          Result.unit_bind_eq_error_iff.2
            (.inl (Result.context_foreign_eq_error_iff.2 ⟨_, htext, rfl⟩))⟩)⟩)⟩
      rw [loadRecords_leaves hload]
      exact proveBundle_eq sha256 hexEncode hrecord

section Query

variable {records : List Bytes} {leaves : List Hash} (level : ℕ)
  (hload : loadRecords sha256 hexDecode readToString recordsFromStr path = .ok (records, leaves))
include hload

theorem cmdQuery_of_length_le (hlen : records.length ≤ index) :
    cmdQuery sha256 hexEncode hexDecode tryFromIntError readToString recordsFromStr path index
        level =
      bail s!"index {index} out of range for {records.length} records" := by
  simp only [cmdQuery, hload, Result.ok_bind, if_pos hlen]

theorem cmdQuery_of_word_le (hlt : index < records.length) (hword : 2 ^ 32 ≤ index) :
    cmdQuery sha256 hexEncode hexDecode tryFromIntError readToString recordsFromStr path index
        level =
      .error (.err ⟨["index does not fit u32", tryFromIntError]⟩) := by
  obtain rfl := loadRecords_leaves hload
  have hlen : index < (leavesOf sha256 records).length := by simpa [leavesOf] using hlt
  simp only [cmdQuery, hload, Result.ok_bind, if_neg (not_le.2 hlt),
    Result.index_of_getElem? (List.getElem?_eq_getElem hlen), u32TryFrom, if_neg (not_lt.2 hword)]
  rfl

end Query

theorem cmdQuery_eq_error_iff {level : ℕ} :
    cmdQuery sha256 hexEncode hexDecode tryFromIntError readToString recordsFromStr path index
        level = .error fault ↔
      ∃ e, fault = .err e ∧
        QueryError sha256 hexDecode tryFromIntError readToString recordsFromStr path index e := by
  constructor
  · intro hfault
    rcases Result.bind_eq_error_iff.1 hfault with hload | ⟨⟨records, leaves⟩, hload, -⟩
    · obtain ⟨e, rfl, he⟩ := loadRecords_eq_error_iff.1 hload
      exact ⟨e, rfl, .load he⟩
    · by_cases hlen : records.length ≤ index
      · rw [cmdQuery_of_length_le level hload hlen, Result.bail_eq_error_iff] at hfault
        exact ⟨_, hfault, .range hload hlen⟩
      · rw [not_le] at hlen
        by_cases hword : index < 2 ^ 32
        · -- What follows the checks of the index succeeds.
          obtain ⟨key, hquery⟩ := cmdQuery_of_load hexEncode tryFromIntError hload
            (List.getElem?_eq_getElem hlen) hword level
          rw [hquery] at hfault
          cases hfault
        · rw [not_lt] at hword
          rw [cmdQuery_of_word_le level hload hlen hword] at hfault
          exact ⟨_, (Except.error.inj hfault).symm, .word hload hlen hword⟩
  · rintro ⟨e, rfl, he⟩
    cases he with
    | load he =>
      exact Result.bind_eq_error_iff.2 (.inl (loadRecords_eq_error_iff.2 ⟨_, rfl, he⟩))
    | range hload hlen => exact cmdQuery_of_length_le level hload hlen
    | word hload hlt hword => exact cmdQuery_of_word_le level hload hlt hword

end Records

/-- `vaa anchor`, `vaa prove` and `vaa query` never panic, and fail exactly with the error
    of the first step that fails: loading the file, where the error names the first entry
    that does not decode, an empty list of leaves, an index out of range or beyond 32 bits,
    and writing the bundle. -/
theorem commands_fail_iff (sha256 : Bytes → Hash) (hexEncode : Bytes → String)
    (hexDecode : String → Except String Bytes) (tryFromIntError : String)
    (readToString : String → Except String String)
    (leavesFromStr : String → Except String LeavesFile)
    (recordsFromStr : String → Except String RecordsFile)
    (toStringPretty : ProofBundle → Except String String)
    (write : String → String → Except String Unit) (path outPath : String) (index level : ℕ)
    (fault : Fault AnyhowError) :
    (cmdAnchor sha256 hexEncode hexDecode readToString leavesFromStr path = .error fault ↔
      ∃ e, fault = .err e ∧ AnchorError hexDecode readToString leavesFromStr path e) ∧
    (cmdProve sha256 hexEncode hexDecode readToString recordsFromStr toStringPretty write path
        index outPath = .error fault ↔
      ∃ e, fault = .err e ∧ ProveError sha256 hexEncode hexDecode readToString recordsFromStr
        toStringPretty write path index outPath e) ∧
    (cmdQuery sha256 hexEncode hexDecode tryFromIntError readToString recordsFromStr path index
        level = .error fault ↔
      ∃ e, fault = .err e ∧
        QueryError sha256 hexDecode tryFromIntError readToString recordsFromStr path index e) :=
  ⟨cmdAnchor_eq_error_iff, cmdProve_eq_error_iff, cmdQuery_eq_error_iff⟩

end Vaa.Cli
