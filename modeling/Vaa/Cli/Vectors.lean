import Vaa.Cli.Failures
import Vaa.Cli.Reproduce
import Vaa.Simstudy.Canonical
import Vaa.Simstudy.Vector

/-!
# What reproduces

`vaa reproduce` passes exactly when there is a vector, and every vector there is can be
read and matches (`reproduces_iff`): a missing one is skipped, and the order of the checks
does not matter. The vector of the genesis block matches whatever the hash, as a tree of
one leaf hashes nothing.

It panics only in a build that checks overflows, on a storage vector whose baseline is out
of range, after the vectors of the blocks have passed (`reproduce_panics_iff`).

The vectors the studies write are checked again: the one of a population study always
matches (`simstudy_reproduces`), the one of a storage study when the labels it publishes
are not more than the siblings above them in the proofs (`storage_reproduces_iff`).
-/

namespace Vaa.Cli

open PairTree Merkle Json Simstore

/-! ## Vectors that match -/

section Matches

variable (sha256 : Bytes → Hash) (hexEncode : Bytes → String)
  (hexDecode : String → Except String Bytes)

/-- The root is the only transaction id. -/
def GenesisMatches (v : Value) : Prop :=
  ∃ expected coinbase leaf, (v.get "expected_root_display_be").asStr = some expected ∧
    (v.get "coinbase_txid_display_be").asStr = some coinbase ∧
    displayToInternal hexDecode coinbase = .ok leaf ∧
    internalToDisplay hexEncode leaf = expected

/-- The root is the one of the transaction ids. -/
def BsvBlockMatches (v : Value) : Prop :=
  ∃ expected txids leaves, (v.get "expected_merkle_root_display_be").asStr = some expected ∧
    (v.get "txids_display_be").asArray = some txids ∧
    List.Forall₂ (fun txid leaf => ∃ s, txid.asStr = some s ∧
      displayToInternal hexDecode s = .ok leaf) txids leaves ∧
    leaves ≠ [] ∧ internalToDisplay hexEncode (rootOf (Merkle.hashPair sha256) leaves) = expected

/-- A fault is detected as often as injected, and never in the clean population. A number
    that is missing is read as zero. -/
def FaultMatches (f : Value) : Prop :=
  (f.get "detected").asU64.getD 0 = (f.get "injected").asU64.getD 0 ∧
    (f.get "false_positives_clean").asU64.getD 0 = 0

/-- The population rolls forward, its faults match, and no falsehood at the origin is
    detected. -/
def SimstudyMatches (v : Value) : Prop :=
  (∃ m, ((v.get "population").get "m_records").asU64 = some m) ∧
    (v.get "roll_forward_holds").asBool = some true ∧
    (∃ faults, (v.get "faults").asArray = some faults ∧ ∀ f ∈ faults, FaultMatches f) ∧
    (v.get "origin_falsehood_detected").asU64 = some 0

end Matches

section Checks

variable {sha256 : Bytes → Hash} {hexEncode : Bytes → String}
  {hexDecode : String → Except String Bytes} {v : Value}

theorem rootOf_singleton (hashPair : Hash → Hash → Hash) (leaf : Hash) :
    rootOf hashPair [leaf] = leaf := rfl

variable (sha256) in
theorem checkGenesis_ok_iff : (∃ line, checkGenesis sha256 hexEncode hexDecode v = .ok line) ↔
    GenesisMatches hexEncode hexDecode v := by
  simp only [checkGenesis, Result.bind_eq_ok_iff, Result.ofOption_eq_ok_iff,
    Result.mapErr_eq_ok_iff, merkleRoot_eq_ok_iff]
  constructor
  · rintro ⟨_, expected, hexpected, coinbase, hcoinbase, leaf, hleaf, regen, ⟨-, hregen⟩, hrest⟩
    rw [hregen, rootOf_singleton] at hrest
    split at hrest
    · cases hrest
    · next heq => exact ⟨expected, coinbase, leaf, hexpected, hcoinbase, hleaf, not_not.1 heq⟩
  · rintro ⟨expected, coinbase, leaf, hexpected, hcoinbase, hleaf, heq⟩
    refine ⟨"  [ok]  merkle.genesis.v1", expected, hexpected, coinbase, hcoinbase, leaf, hleaf,
      leaf, ⟨List.cons_ne_nil _ _, rfl⟩, ?_⟩
    rw [if_neg (not_not.2 heq)]
    rfl

theorem checkBsvBlock_ok_iff :
    (∃ line, checkBsvBlock sha256 hexEncode hexDecode v = .ok line) ↔
      BsvBlockMatches sha256 hexEncode hexDecode v := by
  -- The indices are only in the errors, so the loop is a map over the ids.
  have hturns (txids : List Value) (leaves : List Hash) :
      (txids.zipIdx.mapM fun p => do
        let s ← Result.ofOption s!"txid #{p.2} not string" p.1.asStr
        (displayToInternal hexDecode s).context s!"txid #{p.2}") = .ok leaves ↔
      List.Forall₂ (fun txid leaf => ∃ s, txid.asStr = some s ∧
        displayToInternal hexDecode s = .ok leaf) txids leaves := by
    rw [Result.mapM_eq_ok_iff]
    simp only [Result.bind_eq_ok_iff, Result.ofOption_eq_ok_iff, Result.context_eq_ok_iff]
    exact Result.forall₂_zipIdx_iff (R := fun (txid : Value) leaf => ∃ s, txid.asStr = some s ∧
      displayToInternal hexDecode s = .ok leaf)
  simp only [checkBsvBlock, Result.bind_eq_ok_iff, Result.ofOption_eq_ok_iff,
    Result.mapErr_eq_ok_iff, merkleRoot_eq_ok_iff]
  constructor
  · rintro ⟨_, expected, hexpected, txids, htxids, leaves, hleaves, _, ⟨hne, rfl⟩, hrest⟩
    split at hrest
    · cases hrest
    · next heq =>
      exact ⟨expected, txids, leaves, hexpected, htxids, (hturns txids leaves).1 hleaves, hne,
        not_not.1 heq⟩
  · rintro ⟨expected, txids, leaves, hexpected, htxids, hleaves, hne, heq⟩
    refine ⟨"  [ok]  merkle.bsv_block.v1", expected, hexpected, txids, htxids, leaves,
      (hturns txids leaves).2 hleaves, _, ⟨hne, rfl⟩, ?_⟩
    rw [if_neg (not_not.2 heq)]
    rfl

theorem checkFault_eq_ok_iff {f : Value} : checkFault f = .ok () ↔ FaultMatches f := by
  simp only [checkFault]
  split
  · next hdetected => exact iff_of_false Result.error_ne_ok fun h => hdetected h.1
  · next hdetected =>
    split
    · next hpositives => exact iff_of_false Result.error_ne_ok fun h => hpositives h.2
    · next hpositives => exact iff_of_true rfl ⟨not_not.1 hdetected, not_not.1 hpositives⟩

theorem checkSimstudy_ok_iff : (∃ line, checkSimstudy v = .ok line) ↔ SimstudyMatches v := by
  have hfaults (faults : List Value) :
      (∃ checked, faults.mapM checkFault = .ok checked) ↔ ∀ f ∈ faults, FaultMatches f := by
    rw [Result.exists_mapM_eq_ok_iff]
    refine forall₂_congr fun f _ => ?_
    rw [← checkFault_eq_ok_iff]
    exact ⟨fun ⟨_, h⟩ => h, fun h => ⟨(), h⟩⟩
  -- A missing number of falsehoods is read as 99.
  have horigin (opt : Option UInt64) : opt.getD 99 = 0 ↔ opt = some 0 := by
    cases opt <;> simp
  simp only [checkSimstudy, Result.bind_eq_ok_iff, Result.ofOption_eq_ok_iff]
  constructor
  · rintro ⟨_, m, hm, roll, hroll, hrest⟩
    cases roll with
    | false => cases hrest
    | true =>
      simp only [Bool.true_eq_false, if_false, Result.bind_eq_ok_iff,
        Result.ofOption_eq_ok_iff] at hrest
      obtain ⟨faults, hget, checked, hchecked, hrest⟩ := hrest
      split at hrest
      · cases hrest
      · next hzero =>
        exact ⟨⟨m, hm⟩, hroll, ⟨faults, hget, (hfaults faults).1 ⟨checked, hchecked⟩⟩,
          (horigin _).1 (not_not.1 hzero)⟩
  · rintro ⟨⟨m, hm⟩, hroll, ⟨faults, hget, hall⟩, hzero⟩
    obtain ⟨checked, hchecked⟩ := (hfaults faults).2 hall
    refine ⟨s!"  [ok]  study.simstudy (M={m}, all in-scope faults detected, " ++
      "origin-falsehood boundary preserved)", m, hm, true, hroll, ?_⟩
    simp only [Bool.true_eq_false, if_false, Result.bind_eq_ok_iff, Result.ofOption_eq_ok_iff]
    refine ⟨faults, hget, checked, hchecked, ?_⟩
    rw [if_neg (not_not.2 ((horigin _).2 hzero))]
    rfl

end Checks

/-! ## The command -/

section Command

variable {pathExists : String → Bool} {readToString : String → Except String String}
  {valueFromStr : String → Except String Value} {sha256 : Bytes → Hash}
  {hexEncode : Bytes → String} {hexDecode : String → Except String Bytes} {overflowChecks : Bool}
  {path : String} {check : Value → Result AnyhowError String} {lines : List String}

/-- The value of a vector is read and matches, if its file exists. -/
def InOrder (pathExists : String → Bool) (readToString : String → Except String String)
    (valueFromStr : String → Except String Value) (path : String) (Matches : Value → Prop) :
    Prop :=
  pathExists path = true →
    ∃ raw v, readToString path = .ok raw ∧ valueFromStr raw = .ok v ∧ Matches v

/-- The paths of the vectors. -/
def vectorPaths : List String :=
  ["vectors/merkle/genesis_v1.json", "vectors/merkle/bsv_block_v1.json",
    "vectors/study/storage_1024.json", "vectors/study/simstudy_200.json"]

/-- A vector in order gives a line, one that does not exist none. -/
theorem reproduceVector_ok_iff {Matches : Value → Prop}
    (hcheck : ∀ v, (∃ line, check v = .ok line) ↔ Matches v) :
    (∃ lines, reproduceVector pathExists readToString valueFromStr path check = .ok lines) ↔
      InOrder pathExists readToString valueFromStr path Matches := by
  rw [reproduceVector, InOrder]
  split
  · next hexists =>
    simp only [Result.bind_eq_ok_iff, Result.foreign_eq_ok_iff, hexists, true_imp_iff, ← hcheck]
    constructor
    · rintro ⟨_, raw, hraw, v, hv, line, hline, -⟩
      exact ⟨raw, v, hraw, hv, line, hline⟩
    · rintro ⟨raw, v, hraw, hv, line, hline⟩
      exact ⟨[line], raw, hraw, v, hv, line, hline, rfl⟩
  · next hmissing => exact iff_of_true ⟨[], rfl⟩ fun hexists => absurd hexists hmissing

theorem length_of_reproduceVector
    (hlines : reproduceVector pathExists readToString valueFromStr path check = .ok lines) :
    lines.length = (pathExists path).toNat := by
  rw [reproduceVector] at hlines
  split at hlines
  · next hexists =>
    simp only [Result.bind_eq_ok_iff] at hlines
    obtain ⟨_, -, _, -, line, -, ⟨⟩⟩ := hlines
    rw [hexists]
    rfl
  · next hmissing =>
    cases hlines
    rw [Bool.eq_false_of_not_eq_true hmissing]
    rfl

/-- There is a line for each vector that exists. -/
theorem length_passed {check₁ check₂ check₃ check₄ : Value → Result AnyhowError String}
    {genesis bsvBlock storage simstudy : List String}
    (hgenesis : reproduceVector pathExists readToString valueFromStr
      "vectors/merkle/genesis_v1.json" check₁ = .ok genesis)
    (hbsvBlock : reproduceVector pathExists readToString valueFromStr
      "vectors/merkle/bsv_block_v1.json" check₂ = .ok bsvBlock)
    (hstorage : reproduceVector pathExists readToString valueFromStr
      "vectors/study/storage_1024.json" check₃ = .ok storage)
    (hsimstudy : reproduceVector pathExists readToString valueFromStr
      "vectors/study/simstudy_200.json" check₄ = .ok simstudy) :
    (genesis ++ bsvBlock ++ storage ++ simstudy).length = vectorPaths.countP pathExists := by
  simp only [List.length_append, length_of_reproduceVector hgenesis,
    length_of_reproduceVector hbsvBlock, length_of_reproduceVector hstorage,
    length_of_reproduceVector hsimstudy, vectorPaths, List.countP_cons, List.countP_nil,
    Nat.zero_add, Bool.toNat, Bool.cond_eq_ite]
  ac_rfl

/-- `vaa reproduce` passes exactly when some vector exists, and every one that exists is
    in order. It ends with their number. -/
theorem reproduces_iff (pathExists : String → Bool)
    (readToString : String → Except String String) (valueFromStr : String → Except String Value)
    (sha256 : Bytes → Hash) (hexEncode : Bytes → String)
    (hexDecode : String → Except String Bytes) (overflowChecks : Bool) :
    (∃ passed, cmdReproduce pathExists readToString valueFromStr sha256 hexEncode hexDecode
        overflowChecks = .ok (["vaa reproduce", "============="] ++ passed ++
          ["", s!"reproduce passed: {passed.length} committed vector(s) match"]) ∧
      passed.length = vectorPaths.countP pathExists) ↔
    (∃ path ∈ vectorPaths, pathExists path = true) ∧
      InOrder pathExists readToString valueFromStr "vectors/merkle/genesis_v1.json"
        (GenesisMatches hexEncode hexDecode) ∧
      InOrder pathExists readToString valueFromStr "vectors/merkle/bsv_block_v1.json"
        (BsvBlockMatches sha256 hexEncode hexDecode) ∧
      InOrder pathExists readToString valueFromStr "vectors/study/storage_1024.json"
        (Tested overflowChecks) ∧
      InOrder pathExists readToString valueFromStr "vectors/study/simstudy_200.json"
        SimstudyMatches := by
  rw [← reproduceVector_ok_iff fun _ => checkGenesis_ok_iff sha256,
    ← reproduceVector_ok_iff fun _ => checkBsvBlock_ok_iff,
    ← reproduceVector_ok_iff fun _ => checkStorage_ok_iff,
    ← reproduceVector_ok_iff fun _ => checkSimstudy_ok_iff, ← List.countP_pos_iff]
  simp only [cmdReproduce, Result.bind_eq_ok_iff]
  constructor
  · rintro ⟨_, ⟨genesis, hgenesis, bsvBlock, hbsvBlock, storage, hstorage, simstudy, hsimstudy,
      hrest⟩, -⟩
    refine ⟨?_, ⟨_, hgenesis⟩, ⟨_, hbsvBlock⟩, ⟨_, hstorage⟩, _, hsimstudy⟩
    split at hrest
    · cases hrest
    · next hne =>
      rw [length_passed hgenesis hbsvBlock hstorage hsimstudy] at hne
      exact Nat.pos_of_ne_zero hne
  · rintro ⟨hpos, ⟨genesis, hgenesis⟩, ⟨bsvBlock, hbsvBlock⟩, ⟨storage, hstorage⟩, simstudy,
      hsimstudy⟩
    have hlength := length_passed hgenesis hbsvBlock hstorage hsimstudy
    refine ⟨genesis ++ bsvBlock ++ storage ++ simstudy, ⟨genesis, hgenesis, bsvBlock, hbsvBlock,
      storage, hstorage, simstudy, hsimstudy, ?_⟩, hlength⟩
    rw [if_neg (hlength ▸ hpos.ne')]
    rfl

end Command

/-! ## Panics -/

section Panics

variable {sha256 : Bytes → Hash} {hexEncode : Bytes → String}
  {hexDecode : String → Except String Bytes} {overflowChecks : Bool} {v : Value}

theorem returns_displayToInternal (s : String) : (displayToInternal hexDecode s).Returns := by
  intro hpanic
  obtain ⟨_, hfault, -⟩ := displayToInternal_eq_error_iff.1 hpanic
  cases hfault

theorem returns_merkleRoot (hashPair : Hash → Hash → Hash) (leaves : List Hash) :
    (merkleRoot hashPair leaves).Returns := by
  by_cases hne : leaves = []
  · rw [hne, merkleRoot_nil]
    exact nofun
  · rw [merkleRoot_eq hashPair hne]
    exact Result.returns_ok _

theorem returns_checkGenesis : (checkGenesis sha256 hexEncode hexDecode v).Returns := by
  refine .bind (Result.returns_ofOption _ _) fun expected _ => ?_
  refine .bind (Result.returns_ofOption _ _) fun coinbase _ => ?_
  refine .bind (returns_displayToInternal _) fun leaf _ => ?_
  refine .bind (returns_merkleRoot _ _).mapErr fun regen _ => ?_
  exact .ite (fun _ => Result.returns_bail _) fun _ => Result.returns_ok _

theorem returns_checkBsvBlock : (checkBsvBlock sha256 hexEncode hexDecode v).Returns := by
  refine .bind (Result.returns_ofOption _ _) fun expected _ => ?_
  refine .bind (Result.returns_ofOption _ _) fun txids _ => ?_
  refine .bind (.mapM fun p _ => ?_) fun leaves _ => ?_
  · exact .bind (Result.returns_ofOption _ _) fun s _ => (returns_displayToInternal s).context
  · refine .bind (returns_merkleRoot _ _).mapErr fun regen _ => ?_
    exact .ite (fun _ => Result.returns_bail _) fun _ => Result.returns_ok _

theorem returns_checkSimstudy : (checkSimstudy v).Returns := by
  refine .bind (Result.returns_ofOption _ _) fun m _ => ?_
  refine .bind (Result.returns_ofOption _ _) fun roll _ => ?_
  refine .ite (fun _ => Result.returns_bail _) fun _ => ?_
  refine .bind (Result.returns_ofOption _ _) fun faults _ => ?_
  refine .bind (.mapM fun f _ => ?_) fun checked _ => ?_
  · refine .ite (fun _ => Result.returns_bail _) fun _ => ?_
    exact .ite (fun _ => Result.returns_bail _) fun _ => Result.returns_ok _
  · exact .ite (fun _ => Result.returns_bail _) fun _ => Result.returns_ok _

/-- The storage vector claims more bytes than a word counts. -/
def Overflows (v : Value) : Prop :=
  ∃ n q depth, v.field "n_leaves" = some n ∧ v.field "q_queries" = some q ∧
    v.field "tree_depth" = some depth ∧ 2 ^ 64 ≤ q * depth * 32

/-- The product of the check panics when it is out of range. -/
theorem baseline_panics_iff {α : Type} {q depth : UInt64} {rest : UInt64 → Result AnyhowError α}
    (hrest : ∀ w, (rest w).Returns) :
    (do
      let siblings ← mulWords overflowChecks q depth
      let expectedBaseline ← mulWords overflowChecks siblings 32
      rest expectedBaseline) = .error .panicked ↔
      overflowChecks = true ∧ 2 ^ 64 ≤ q.toNat * depth.toNat * 32 := by
  by_cases hfits : overflowChecks = true → q.toNat * depth.toNat * 32 < 2 ^ 64
  · -- Both products end with a value, and the rest returns.
    have hproduct : (q * depth * 32).toNat = q.toNat * depth.toNat * 32 % 2 ^ 64 := by
      rw [UInt64.toNat_mul, UInt64.toNat_mul, Nat.mod_mul_mod]
      rfl
    obtain ⟨siblings, hsiblings, hbaseline⟩ := exists_baseline_iff.2 ⟨hfits, hproduct⟩
    rw [hsiblings, Result.ok_bind, hbaseline, Result.ok_bind]
    exact iff_of_false (hrest _) fun h => absurd (hfits h.1) (not_lt.2 h.2)
  · obtain ⟨hchecks, hout⟩ := Classical.not_imp.1 hfits
    refine iff_of_true ?_ ⟨hchecks, not_lt.1 hout⟩
    rw [Result.bind_eq_error_iff]
    -- The first product is out of range already, or else the second one is.
    by_cases hsiblings : q.toNat * depth.toNat < 2 ^ 64
    · refine .inr ⟨q * depth, machine_eq_ok_iff.2 ⟨fun _ => hsiblings, rfl⟩,
        Result.bind_eq_error_iff.2 (.inl (Result.machine_eq_error_iff.2 ⟨⟨hchecks, ?_⟩, rfl⟩))⟩
      rwa [UInt64.toNat_mul, Nat.mod_eq_of_lt hsiblings]
    · exact .inl (Result.machine_eq_error_iff.2 ⟨⟨hchecks, hsiblings⟩, rfl⟩)

theorem checkStorage_panics_iff : checkStorage overflowChecks v = .error .panicked ↔
    overflowChecks = true ∧ Overflows v := by
  -- The tests after the product do not panic.
  have hrest (n q expectedBaseline : UInt64) : Result.Returns (do
      let storedBaseline ← Result.ofOption "missing baseline_bytes_formula"
        (v.get "baseline_bytes_formula").asU64
      if storedBaseline ≠ expectedBaseline then
        bail (s!"MISMATCH for study.storage_1024: baseline expected {expectedBaseline} " ++
          s!"got {storedBaseline}")
      else
        let min := (v.get "minimum_viable_bytes").asU64.getD (UInt64.ofNat (2 ^ 64 - 1))
        if expectedBaseline < min then
          bail (s!"study.storage_1024: minimum-viable sharded ({min}) " ++
            s!"exceeds baseline ({expectedBaseline})")
        else
          return s!"  [ok]  study.storage_1024 (N={n}, Q={q}, baseline={expectedBaseline}B)") := by
    refine .bind (Result.returns_ofOption _ _) fun storedBaseline _ => ?_
    refine .ite (fun _ => Result.returns_bail _) fun _ => ?_
    exact .ite (fun _ => Result.returns_bail _) fun _ => Result.returns_ok _
  simp only [checkStorage, (Result.returns_ofOption _ _).bind_panics_iff,
    Result.ofOption_eq_ok_iff, baseline_panics_iff (hrest _ _)]
  constructor
  · rintro ⟨n, hn, q, hq, depth, hdepth, hchecks, hout⟩
    exact ⟨hchecks, n.toNat, q.toNat, depth.toNat, Value.field_eq_some_iff.2 ⟨n, hn, rfl⟩,
      Value.field_eq_some_iff.2 ⟨q, hq, rfl⟩, Value.field_eq_some_iff.2 ⟨depth, hdepth, rfl⟩, hout⟩
  · rintro ⟨hchecks, _, _, _, hn, hq, hdepth, hout⟩
    obtain ⟨n, hn', rfl⟩ := Value.field_eq_some_iff.1 hn
    obtain ⟨q, hq', rfl⟩ := Value.field_eq_some_iff.1 hq
    obtain ⟨depth, hdepth', rfl⟩ := Value.field_eq_some_iff.1 hdepth
    exact ⟨n, hn', q, hq', depth, hdepth', hchecks, hout⟩

variable {pathExists : String → Bool} {readToString : String → Except String String}
  {valueFromStr : String → Except String Value} {path : String}
  {check : Value → Result AnyhowError String}

theorem reproduceVector_panics_iff :
    reproduceVector pathExists readToString valueFromStr path check = .error .panicked ↔
      pathExists path = true ∧ ∃ raw v, readToString path = .ok raw ∧
        valueFromStr raw = .ok v ∧ check v = .error .panicked := by
  rw [reproduceVector]
  split
  · next hexists =>
    simp only [Result.bind_eq_error_iff, Result.foreign_eq_error_iff, Result.foreign_eq_ok_iff]
    constructor
    · intro h
      rcases h with ⟨_, -, ⟨⟩⟩ | ⟨raw, hraw, ⟨_, -, ⟨⟩⟩ | ⟨v, hv, hcheck | ⟨_, -, ⟨⟩⟩⟩⟩
      exact ⟨hexists, raw, v, hraw, hv, hcheck⟩
    · rintro ⟨-, raw, v, hraw, hv, hcheck⟩
      exact .inr ⟨raw, hraw, .inr ⟨v, hv, .inl hcheck⟩⟩
  · next hmissing => exact iff_of_false Result.ok_ne_error fun h => hmissing h.1

theorem returns_reproduceVector (hcheck : ∀ v, (check v).Returns) :
    (reproduceVector pathExists readToString valueFromStr path check).Returns := by
  intro hpanic
  obtain ⟨-, _, v, -, -, hv⟩ := reproduceVector_panics_iff.1 hpanic
  exact hcheck v hv

/-- `vaa reproduce` panics exactly in a build that checks overflows, when the vectors of
    the blocks are in order and the storage vector overflows. -/
theorem reproduce_panics_iff (pathExists : String → Bool)
    (readToString : String → Except String String) (valueFromStr : String → Except String Value)
    (sha256 : Bytes → Hash) (hexEncode : Bytes → String)
    (hexDecode : String → Except String Bytes) (overflowChecks : Bool) :
    cmdReproduce pathExists readToString valueFromStr sha256 hexEncode hexDecode overflowChecks =
        .error .panicked ↔
      overflowChecks = true ∧
      InOrder pathExists readToString valueFromStr "vectors/merkle/genesis_v1.json"
        (GenesisMatches hexEncode hexDecode) ∧
      InOrder pathExists readToString valueFromStr "vectors/merkle/bsv_block_v1.json"
        (BsvBlockMatches sha256 hexEncode hexDecode) ∧
      pathExists "vectors/study/storage_1024.json" = true ∧
      ∃ raw v, readToString "vectors/study/storage_1024.json" = .ok raw ∧
        valueFromStr raw = .ok v ∧ Overflows v := by
  -- Nothing after the storage vector panics, and of the vectors before it, nothing either.
  have hlast (genesis bsvBlock storage : List String) : (do
      let simstudy ← reproduceVector pathExists readToString valueFromStr
        "vectors/study/simstudy_200.json" checkSimstudy
      let passed := genesis ++ bsvBlock ++ storage ++ simstudy
      if passed.length = 0 then
        bail "no committed vectors found under vectors/; run from the repository root"
      else
        return ["vaa reproduce", "============="] ++ passed ++
          ["", s!"reproduce passed: {passed.length} committed vector(s) match"] :
      Result AnyhowError (List String)).Returns := by
    refine .bind (returns_reproduceVector fun _ => returns_checkSimstudy) fun simstudy _ => ?_
    exact .ite (fun _ => Result.returns_bail _) fun _ => Result.returns_ok _
  rw [← reproduceVector_ok_iff fun _ => checkGenesis_ok_iff sha256,
    ← reproduceVector_ok_iff fun _ => checkBsvBlock_ok_iff]
  rw [cmdReproduce, (returns_reproduceVector fun _ => returns_checkGenesis).bind_panics_iff]
  simp only [(returns_reproduceVector fun _ => returns_checkBsvBlock).bind_panics_iff,
    Result.bind_panics_iff_of_returns fun _ _ => hlast _ _ _, reproduceVector_panics_iff,
    checkStorage_panics_iff]
  constructor
  · rintro ⟨genesis, hgenesis, bsvBlock, hbsvBlock, hexists, raw, v, hraw, hv, hchecks, hout⟩
    exact ⟨hchecks, ⟨genesis, hgenesis⟩, ⟨bsvBlock, hbsvBlock⟩, hexists, raw, v, hraw, hv, hout⟩
  · rintro ⟨hchecks, ⟨genesis, hgenesis⟩, ⟨bsvBlock, hbsvBlock⟩, hexists, raw, v, hraw, hv, hout⟩
    exact ⟨genesis, hgenesis, bsvBlock, hbsvBlock, hexists, raw, v, hraw, hv, hchecks, hout⟩

end Panics

/-! ## The vectors of the studies -/

section Studies

/-- A fault that is detected matches, as written. -/
theorem faultMatches_toValue {f : Simstudy.FaultClass}
    (hf : f.injected = 1 ∧ f.detected = 1 ∧ f.falsePositivesClean = 0) :
    FaultMatches f.toValue := by
  cases f
  obtain ⟨rfl, rfl, rfl⟩ := hf
  exact ⟨rfl, rfl⟩

theorem simstudyMatches_stable {report : Simstudy.Report} (hreport : report.InOrder) :
    SimstudyMatches report.stable := by
  refine ⟨⟨_, rfl⟩, congrArg some hreport.holds, ⟨_, rfl, fun v hv => ?_⟩, ?_⟩
  · obtain ⟨f, hf, rfl⟩ := List.mem_map.1 hv
    exact faultMatches_toValue (hreport.detected f hf)
  · have horigin : (report.stable.get "origin_falsehood_detected").asU64 =
        some (UInt64.ofNat report.originFalsehoodDetected) := rfl
    rw [horigin, hreport.origin_undetected]
    rfl

/-- The vector that a population study writes matches, whatever the hash, the population
    drawn and the bytes of its records. -/
theorem simstudy_reproduces (sha256 : Bytes → Hash)
    (toVec : Simstudy.AccountingRecord → Bytes) (overflowChecks : Bool) (m inclusionSample : ℕ)
    (draws : Simstudy.Draws) (originDraw : UInt64) (report : Simstudy.Report)
    (hreport : Simstudy.study sha256 overflowChecks toVec m inclusionSample draws originDraw =
      .ok report) :
    report.population.mRecords = m ∧ ∃ line, checkSimstudy report.stable = .ok line := by
  obtain ⟨hinOrder, hm⟩ := Simstudy.inOrder_of_study hreport
  exact ⟨hm, checkSimstudy_ok_iff.2 (simstudyMatches_stable hinOrder)⟩

theorem simstudy_reproduces_two : ∃ report : Simstudy.Report,
    report.population.mRecords = 2 ∧ ∃ line, checkSimstudy report.stable = .ok line := by
  have hok : (Simstudy.study Sha256.digest true Simstudy.AccountingRecord.canonicalBytes 2 2
      Simstudy.scarceDraws 0).isOk = true := by
    decide +kernel
  cases hreport : Simstudy.study Sha256.digest true Simstudy.AccountingRecord.canonicalBytes 2 2
      Simstudy.scarceDraws 0 with
  | error fault =>
    rw [hreport] at hok
    cases hok
  | ok report =>
    exact ⟨report, simstudy_reproduces Sha256.digest Simstudy.AccountingRecord.canonicalBytes true
      2 2 Simstudy.scarceDraws 0 report hreport⟩

/-- The vector that a storage study writes matches exactly when the labels published for
    assisted verification are not more than the siblings above them in the proofs of the
    queries, which they stand in for. -/
theorem storage_reproduces_iff (overflowChecks : Bool) (sha256 : Bytes → Hash)
    (leaves : List Hash) (indices : List ℕ) (predeterminedLevel : Option ℕ) (hne : indices ≠ [])
    (hlt : ∀ i ∈ indices, i < leaves.length) (hindices : ∀ i ∈ indices, i < 2 ^ 32)
    (hfits : (reportOf sha256 (predeterminedLevel.getD (ceilLog2 leaves.length / 2)) leaves
      indices).toFigures.Fits) :
    let depth := ceilLog2 leaves.length
    let k := min (predeterminedLevel.getD (depth / 2)) depth
    ∃ report, study sha256 leaves indices predeterminedLevel = .ok report ∧
      ((∃ line, checkStorage overflowChecks report.stable = .ok line) ↔
        leaves.length ⌈/⌉ 2 ^ k ≤ indices.length * (depth - k)) := by
  intro depth k
  have hconsistent := consistent_reportOf sha256
    (predeterminedLevel.getD (ceilLog2 leaves.length / 2)) leaves indices
  refine ⟨_, study_eq sha256 predeterminedLevel hne hlt hindices, ?_⟩
  rw [checkStorage_stable_iff hconsistent hfits, hconsistent.minimumViable_eq,
    hconsistent.formula_eq, hconsistent.assistance_eq, hconsistent.treeDepth_eq]
  have hk : k ≤ depth := Nat.min_le_right _ _
  change 32 * indices.length * k + 32 * (leaves.length ⌈/⌉ 2 ^ k) ≤
    indices.length * depth * 32 ↔ _
  obtain ⟨above, habove⟩ := Nat.exists_eq_add_of_le hk
  rw [habove, Nat.add_sub_cancel_left, Nat.mul_assoc, ← Nat.mul_add, Nat.mul_comm _ 32,
    Nat.mul_le_mul_left_iff (by decide), Nat.mul_add, Nat.add_le_add_iff_left]

theorem storage_reproduces_four : ∃ report,
    study Sha256.digest (List.replicate 4 (Vector.replicate 32 0)) [0, 3] none = .ok report ∧
      ((∃ line, checkStorage true report.stable = .ok line) ↔ 4 ⌈/⌉ 2 ^ 1 ≤ 2 * (2 - 1)) :=
  storage_reproduces_iff true Sha256.digest (List.replicate 4 (Vector.replicate 32 0)) [0, 3] none
    (by decide) (by decide) (by decide) (by constructor <;> decide)

end Studies

end Vaa.Cli
