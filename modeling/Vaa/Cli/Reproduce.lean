import Vaa.Cli.Anchor
import Vaa.Simstore.Report

/-!
# Reproducing the vectors

`vaa reproduce` reads the vectors that exist and checks them one by one
(`cmdReproduce`). The roots of the blocks are computed again from their transaction ids;
of the vectors of the studies, some fields are compared with each other.

The check of the storage vector (`checkStorage`) does not run the study. It accepts the
vectors that pass its tests (`checkStorage_ok_iff`), those the study writes included if
the lower shards take no more bytes than the proofs (`checkStorage_study_iff`). The tests
read five of the fields: of each reading that passes them there are vectors that are not
consistent, as the other fields may be anything, and a drift is caught only if it changes
the baseline, or the numbers it is computed from, or puts the minimum over it
(`storage_checked_iff`).
-/

namespace Vaa.Cli

open PairTree Merkle Json Simstore

/-! ## The vectors of the blocks -/

section Blocks

variable (sha256 : Bytes → Hash) (hexEncode : Bytes → String)
  (hexDecode : String → Except String Bytes)

/-- `merkle.genesis.v1`. -/
def checkGenesis (mg : Value) : Result AnyhowError String := do
  let expectedDisplay ←
    .ofOption "missing expected_root_display_be" (mg.get "expected_root_display_be").asStr
  let coinbaseDisplay ←
    .ofOption "missing coinbase_txid_display_be" (mg.get "coinbase_txid_display_be").asStr
  let leaf ← displayToInternal hexDecode coinbaseDisplay
  let regen ← (merkleRoot (Merkle.hashPair sha256) [leaf]).mapErr ofMerkle
  let regenDisplay := internalToDisplay hexEncode regen
  if regenDisplay ≠ expectedDisplay then
    bail s!"MISMATCH for merkle.genesis.v1: expected {expectedDisplay}, got {regenDisplay}"
  else
    return "  [ok]  merkle.genesis.v1"

/-- `merkle.bsv_block.v1`. -/
def checkBsvBlock (v : Value) : Result AnyhowError String := do
  let expected ← .ofOption "missing expected_merkle_root_display_be"
    (v.get "expected_merkle_root_display_be").asStr
  let txids ← .ofOption "missing txids_display_be" (v.get "txids_display_be").asArray
  let leaves ← txids.zipIdx.mapM fun (s, i) => do
    let s ← .ofOption s!"txid #{i} not string" s.asStr
    (displayToInternal hexDecode s).context s!"txid #{i}"
  let regen ← (merkleRoot (Merkle.hashPair sha256) leaves).mapErr ofMerkle
  let regenDisplay := internalToDisplay hexEncode regen
  if regenDisplay ≠ expected then
    bail s!"MISMATCH for merkle.bsv_block.v1: expected {expected}, got {regenDisplay}"
  else
    return "  [ok]  merkle.bsv_block.v1"

end Blocks

/-! ## The vectors of the studies -/

/-- `a * b`. -/
def mulWords (overflowChecks : Bool) (a b : UInt64) : Result AnyhowError UInt64 :=
  machine overflowChecks (a.toNat * b.toNat < 2 ^ 64) (a * b)

/-- `study.storage_1024`. -/
def checkStorage (overflowChecks : Bool) (v : Value) : Result AnyhowError String := do
  let n ← .ofOption "missing n_leaves" (v.get "n_leaves").asU64
  let q ← .ofOption "missing q_queries" (v.get "q_queries").asU64
  let depth ← .ofOption "missing tree_depth" (v.get "tree_depth").asU64
  let siblings ← mulWords overflowChecks q depth
  let expectedBaseline ← mulWords overflowChecks siblings 32
  let storedBaseline ←
    .ofOption "missing baseline_bytes_formula" (v.get "baseline_bytes_formula").asU64
  if storedBaseline ≠ expectedBaseline then
    bail (s!"MISMATCH for study.storage_1024: baseline expected {expectedBaseline} " ++
      s!"got {storedBaseline}")
  else
    let min := (v.get "minimum_viable_bytes").asU64.getD (UInt64.ofNat (2 ^ 64 - 1))
    if expectedBaseline < min then
      bail (s!"study.storage_1024: minimum-viable sharded ({min}) " ++
        s!"exceeds baseline ({expectedBaseline})")
    else
      return s!"  [ok]  study.storage_1024 (N={n}, Q={q}, baseline={expectedBaseline}B)"

/-- One turn of the loop over the faults. -/
def checkFault (f : Value) : Result AnyhowError Unit :=
  let name := (f.get "name").asStr.getD "?"
  let injected := (f.get "injected").asU64.getD 0
  let detected := (f.get "detected").asU64.getD 0
  let fpr := (f.get "false_positives_clean").asU64.getD 0
  if detected ≠ injected then
    bail s!"study.simstudy: fault {name} detected {detected}/{injected}"
  else if fpr ≠ 0 then
    bail s!"study.simstudy: fault {name} had {fpr} false positives"
  else
    .ok ()

/-- `study.simstudy`. -/
def checkSimstudy (v : Value) : Result AnyhowError String := do
  let m ← .ofOption "missing population.m_records" ((v.get "population").get "m_records").asU64
  let roll ← .ofOption "missing roll_forward_holds" (v.get "roll_forward_holds").asBool
  if roll = false then
    bail "study.simstudy: roll_forward_holds must be true on the clean population"
  else
    let faults ← .ofOption "missing faults array" (v.get "faults").asArray
    let _checked ← faults.mapM checkFault
    let origin := (v.get "origin_falsehood_detected").asU64.getD 99
    if origin ≠ 0 then
      bail (s!"study.simstudy: origin-falsehood boundary must be detected=0 (by-design); " ++
        s!"got {origin}")
    else
      return s!"  [ok]  study.simstudy (M={m}, all in-scope faults detected, " ++
        "origin-falsehood boundary preserved)"

/-! ## The command -/

section Command

variable (pathExists : String → Bool) (readToString : String → Except String String)
  (valueFromStr : String → Except String Value)

/-- The lines printed for one vector: none if its file does not exist. -/
def reproduceVector (path : String) (check : Value → Result AnyhowError String) :
    Result AnyhowError (List String) :=
  if pathExists path = true then do
    let raw ← Result.foreign (readToString path)
    let v ← Result.foreign (valueFromStr raw)
    let line ← check v
    return [line]
  else
    return []

/-- `cmd_reproduce`. -/
def cmdReproduce (sha256 : Bytes → Hash) (hexEncode : Bytes → String)
    (hexDecode : String → Except String Bytes) (overflowChecks : Bool) :
    Result AnyhowError (List String) := do
  let genesis ← reproduceVector pathExists readToString valueFromStr
    "vectors/merkle/genesis_v1.json" (checkGenesis sha256 hexEncode hexDecode)
  let bsvBlock ← reproduceVector pathExists readToString valueFromStr
    "vectors/merkle/bsv_block_v1.json" (checkBsvBlock sha256 hexEncode hexDecode)
  let storage ← reproduceVector pathExists readToString valueFromStr
    "vectors/study/storage_1024.json" (checkStorage overflowChecks)
  let simstudy ← reproduceVector pathExists readToString valueFromStr
    "vectors/study/simstudy_200.json" checkSimstudy
  let passed := genesis ++ bsvBlock ++ storage ++ simstudy
  if passed.length = 0 then
    bail "no committed vectors found under vectors/; run from the repository root"
  else
    return ["vaa reproduce", "============="] ++ passed ++
      ["", s!"reproduce passed: {passed.length} committed vector(s) match"]

end Command

/-- When a vector that exists is passed, its check accepted it. -/
theorem exists_line_of_reproduceVector {pathExists : String → Bool}
    {readToString : String → Except String String} {valueFromStr : String → Except String Value}
    {path raw : String} {v : Value} {check : Value → Result AnyhowError String}
    {lines : List String} (hexists : pathExists path = true) (hread : readToString path = .ok raw)
    (hparse : valueFromStr raw = .ok v)
    (hlines : reproduceVector pathExists readToString valueFromStr path check = .ok lines) :
    ∃ line, check v = .ok line := by
  simp only [reproduceVector, if_pos hexists, Result.bind_eq_ok_iff, Result.foreign_eq_ok_iff,
    hread, hparse, Except.ok.injEq, exists_eq_left'] at hlines
  obtain ⟨line, hline, -⟩ := hlines
  exact ⟨line, hline⟩

/-! ## The storage vector -/

variable {overflowChecks : Bool} {v : Value}

/-- The tests of the check: the baseline is the product the machine computes, and the
    lower shards take no more bytes. -/
def Tested (overflowChecks : Bool) (v : Value) : Prop :=
  ∃ n q depth baseline minimum, v.field "n_leaves" = some n ∧ v.field "q_queries" = some q ∧
    v.field "tree_depth" = some depth ∧ v.field "baseline_bytes_formula" = some baseline ∧
    v.field "minimum_viable_bytes" = some minimum ∧
    (overflowChecks = true → q * depth * 32 < 2 ^ 64) ∧
    baseline = q * depth * 32 % 2 ^ 64 ∧ minimum ≤ baseline

/-- The product of the check, exact up to the wraparound. -/
theorem exists_baseline_iff {q depth w : UInt64} :
    (∃ siblings, mulWords overflowChecks q depth = .ok siblings ∧
      mulWords overflowChecks siblings 32 = .ok w) ↔
      (overflowChecks = true → q.toNat * depth.toNat * 32 < 2 ^ 64) ∧
        w.toNat = q.toNat * depth.toNat * 32 % 2 ^ 64 := by
  have hproduct : (q * depth * 32).toNat = q.toNat * depth.toNat * 32 % 2 ^ 64 := by
    rw [UInt64.toNat_mul, UInt64.toNat_mul, Nat.mod_mul_mod]
    rfl
  simp only [mulWords, machine_eq_ok_iff]
  rw [← hproduct, UInt64.toNat_inj]
  constructor
  · rintro ⟨_, ⟨hsiblings, rfl⟩, hfits, rfl⟩
    refine ⟨fun hchecks => ?_, rfl⟩
    have hlt := hfits hchecks
    rwa [UInt64.toNat_mul, Nat.mod_eq_of_lt (hsiblings hchecks)] at hlt
  · rintro ⟨hfits, rfl⟩
    have hsiblings (hchecks : overflowChecks = true) : q.toNat * depth.toNat < 2 ^ 64 :=
      (Nat.le_mul_of_pos_right _ (by decide)).trans_lt (hfits hchecks)
    refine ⟨_, ⟨hsiblings, rfl⟩, fun hchecks => ?_, rfl⟩
    rw [UInt64.toNat_mul, Nat.mod_eq_of_lt (hsiblings hchecks)]
    exact hfits hchecks

/-- Below the greatest word, the minimum read is in the vector. -/
theorem not_lt_getD_iff {w : UInt64} (hw : w.toNat < 2 ^ 64 - 1) {opt : Option UInt64} :
    ¬w < opt.getD (UInt64.ofNat (2 ^ 64 - 1)) ↔
      ∃ m, opt.map UInt64.toNat = some m ∧ m ≤ w.toNat := by
  cases opt with
  | none =>
    refine iff_of_false (not_not.2 (UInt64.lt_iff_toNat_lt.2 hw)) ?_
    rintro ⟨m, hm, -⟩
    cases hm
  | some m =>
    rw [Option.getD_some, UInt64.not_lt, UInt64.le_iff_toNat_le, Option.map_some]
    simp

/-- The check accepts the vectors that pass its tests. A missing minimum never passes, as
    the baseline is a multiple of 32. -/
theorem checkStorage_ok_iff :
    (∃ line, checkStorage overflowChecks v = .ok line) ↔ Tested overflowChecks v := by
  have hbelow {q depth w : UInt64} (hw : w.toNat = q.toNat * depth.toNat * 32 % 2 ^ 64) :
      w.toNat < 2 ^ 64 - 1 := by
    omega
  simp only [checkStorage, Result.bind_eq_ok_iff, Result.ofOption_eq_ok_iff]
  constructor
  · rintro ⟨_, n, hn, q, hq, depth, hdepth, siblings, hsiblings, w, hw, stored, hstored, hrest⟩
    obtain ⟨hfits, hproduct⟩ := exists_baseline_iff.1 ⟨siblings, hsiblings, hw⟩
    split at hrest
    · cases hrest
    · next heq =>
      obtain rfl := not_not.1 heq
      split at hrest
      · cases hrest
      · next hle =>
        obtain ⟨minimum, hminimum, hle⟩ := (not_lt_getD_iff (hbelow hproduct)).1 hle
        exact ⟨n.toNat, q.toNat, depth.toNat, stored.toNat, minimum,
          Value.field_eq_some_iff.2 ⟨n, hn, rfl⟩, Value.field_eq_some_iff.2 ⟨q, hq, rfl⟩,
          Value.field_eq_some_iff.2 ⟨depth, hdepth, rfl⟩,
          Value.field_eq_some_iff.2 ⟨stored, hstored, rfl⟩, hminimum, hfits, hproduct, hle⟩
  · rintro ⟨_, _, _, _, minimum, hn, hq, hdepth, hstored, hminimum, hfits, hproduct, hle⟩
    obtain ⟨n, hn', rfl⟩ := Value.field_eq_some_iff.1 hn
    obtain ⟨q, hq', rfl⟩ := Value.field_eq_some_iff.1 hq
    obtain ⟨depth, hdepth', rfl⟩ := Value.field_eq_some_iff.1 hdepth
    obtain ⟨stored, hstored', rfl⟩ := Value.field_eq_some_iff.1 hstored
    obtain ⟨siblings, hsiblings, hw⟩ := exists_baseline_iff.2 ⟨hfits, hproduct⟩
    refine ⟨s!"  [ok]  study.storage_1024 (N={n}, Q={q}, baseline={stored}B)", n, hn', q, hq',
      depth, hdepth', siblings, hsiblings, stored, hw, stored, hstored', ?_⟩
    rw [if_neg (not_not.2 rfl),
      if_neg ((not_lt_getD_iff (hbelow hproduct)).2 ⟨minimum, hminimum, hle⟩)]
    rfl

/-- When the command succeeds, the storage vector it finds passes the tests. -/
theorem tested_of_cmdReproduce {pathExists : String → Bool}
    {readToString : String → Except String String} {valueFromStr : String → Except String Value}
    {sha256 : Bytes → Hash} {hexEncode : Bytes → String}
    {hexDecode : String → Except String Bytes} {raw : String} {lines : List String}
    (hexists : pathExists "vectors/study/storage_1024.json" = true)
    (hread : readToString "vectors/study/storage_1024.json" = .ok raw)
    (hparse : valueFromStr raw = .ok v)
    (hok : cmdReproduce pathExists readToString valueFromStr sha256 hexEncode hexDecode
      overflowChecks = .ok lines) : Tested overflowChecks v := by
  simp only [cmdReproduce, Result.bind_eq_ok_iff] at hok
  obtain ⟨_, -, _, -, storage, hstorage, -⟩ := hok
  exact checkStorage_ok_iff.1 (exists_line_of_reproduceVector hexists hread hparse hstorage)

/-- The tests, on the figures of a vector. -/
theorem tested_iff_of_carries {f : Figures} (hcarries : Carries v f) :
    Tested overflowChecks v ↔
      (overflowChecks = true → f.qQueries * f.treeDepth * 32 < 2 ^ 64) ∧
        f.baselineBytesFormula = f.qQueries * f.treeDepth * 32 % 2 ^ 64 ∧
        f.minimumViableBytes ≤ f.baselineBytesFormula := by
  constructor
  · rintro ⟨n, q, depth, baseline, minimum, -, hq, hdepth, hbaseline, hminimum, htests⟩
    obtain rfl := Option.some.inj (hcarries.qQueries.symm.trans hq)
    obtain rfl := Option.some.inj (hcarries.treeDepth.symm.trans hdepth)
    obtain rfl := Option.some.inj (hcarries.baselineBytesFormula.symm.trans hbaseline)
    obtain rfl := Option.some.inj (hcarries.minimumViableBytes.symm.trans hminimum)
    exact htests
  · intro htests
    exact ⟨_, _, _, _, _, hcarries.nLeaves, hcarries.qQueries, hcarries.treeDepth,
      hcarries.baselineBytesFormula, hcarries.minimumViableBytes, htests⟩

/-- The vector the study writes is accepted exactly when the lower shards take no more
    bytes than the proofs. -/
theorem checkStorage_stable_iff {report : Report} (hconsistent : report.Consistent)
    (hfits : report.toFigures.Fits) :
    (∃ line, checkStorage overflowChecks report.stable = .ok line) ↔
      report.minimumViableBytes ≤ report.baselineBytesFormula := by
  have hproduct := hconsistent.formula_eq
  have hlt := hfits.baselineBytesFormula
  rw [hproduct] at hlt
  rw [checkStorage_ok_iff, tested_iff_of_carries (carries_stable hfits)]
  constructor
  · rintro ⟨-, -, hle⟩
    exact hle
  · intro hle
    refine ⟨fun _ => hlt, ?_, hle⟩
    rw [Nat.mod_eq_of_lt hlt, hproduct]

/-- So is the vector of a study, if its figures fit words. -/
theorem checkStorage_study_iff (sha256 : Bytes → Hash) (leaves : List Hash) (indices : List ℕ)
    (k : ℕ) (hne : indices ≠ []) (hlt : ∀ i ∈ indices, i < leaves.length)
    (hindices : ∀ i ∈ indices, i < 2 ^ 32)
    (hfits : (reportOf sha256 k leaves indices).toFigures.Fits) :
    ∃ report, study sha256 leaves indices (some k) = .ok report ∧ report.Consistent ∧
      ((∃ line, checkStorage overflowChecks report.stable = .ok line) ↔
        report.minimumViableBytes ≤ report.baselineBytesFormula) :=
  have hconsistent := consistent_reportOf sha256 k leaves indices
  ⟨_, study_eq sha256 (some k) hne hlt hindices, hconsistent,
    checkStorage_stable_iff hconsistent hfits⟩

/-! ## Drifts -/

/-- The fields the check reads. -/
def fieldsRead : List String :=
  ["n_leaves", "q_queries", "tree_depth", "baseline_bytes_formula", "minimum_viable_bytes"]

/-- The vectors agree on the fields the check reads. -/
def SameReading (v v' : Value) : Prop := ∀ key ∈ fieldsRead, v'.field key = v.field key

theorem sameReading_iff {v' : Value} : SameReading v v' ↔
    v'.field "n_leaves" = v.field "n_leaves" ∧ v'.field "q_queries" = v.field "q_queries" ∧
    v'.field "tree_depth" = v.field "tree_depth" ∧
    v'.field "baseline_bytes_formula" = v.field "baseline_bytes_formula" ∧
    v'.field "minimum_viable_bytes" = v.field "minimum_viable_bytes" := by
  simp only [SameReading, fieldsRead, List.forall_mem_cons, List.not_mem_nil, false_implies,
    implies_true, and_true]

/-- A tested vector may have any words in the fields that are not read. -/
theorem exists_tested_of_unread (htested : Tested overflowChecks v)
    (level realised noDedup assistance : UInt64) : ∃ v' f, SameReading v v' ∧
      Tested overflowChecks v' ∧ Carries v' f ∧ f.predeterminedLevel = level.toNat ∧
      f.baselineBytesRealised = realised.toNat ∧ f.storeHeldBytesNoDedup = noDedup.toNat ∧
      f.assistanceBytes = assistance.toNat := by
  obtain ⟨n, q, depth, baseline, minimum, hn, hq, hdepth, hbaseline, hminimum, htests⟩ := htested
  let report : Report := {
    nLeaves := n
    qQueries := q
    predeterminedLevel := level.toNat
    treeDepth := depth
    baselineBytesFormula := baseline
    baselineBytesRealised := realised.toNat
    storeHeldBytesNoDedup := noDedup.toNat
    minimumViableBytes := minimum
    assistanceBytes := assistance.toNat
    storeHeldBytesUpperDedup := 0
    retrievalAdversarialBytes := 0
    retrievalAssistedBytes := 0
    seed := seed
  }
  have hfits : report.toFigures.Fits :=
    ⟨Value.lt_of_field hn, Value.lt_of_field hq, level.toNat_lt, Value.lt_of_field hdepth,
      Value.lt_of_field hbaseline, realised.toNat_lt, noDedup.toNat_lt,
      Value.lt_of_field hminimum, assistance.toNat_lt⟩
  have hcarries := carries_stable hfits
  refine ⟨report.stable, report.toFigures, ?_, (tested_iff_of_carries hcarries).2 htests,
    hcarries, rfl, rfl, rfl, rfl⟩
  rw [sameReading_iff]
  exact ⟨hcarries.nLeaves.trans hn.symm, hcarries.qQueries.trans hq.symm,
    hcarries.treeDepth.trans hdepth.symm, hcarries.baselineBytesFormula.trans hbaseline.symm,
    hcarries.minimumViableBytes.trans hminimum.symm⟩

/-- The tests depend on the fields read only. -/
theorem SameReading.tested_iff {v' : Value} (hsame : SameReading v v') :
    Tested overflowChecks v' ↔ Tested overflowChecks v := by
  obtain ⟨hn, hq, hdepth, hbaseline, hminimum⟩ := sameReading_iff.1 hsame
  rw [Tested, hn, hq, hdepth, hbaseline, hminimum, Tested]

/-- Whatever a tested vector has in the fields read, there is an inconsistent one that has
    the same in them. -/
theorem exists_inconsistent (htested : Tested overflowChecks v) : ∃ v' f, SameReading v v' ∧
    Tested overflowChecks v' ∧ Carries v' f ∧ ¬f.Consistent := by
  obtain ⟨_, _, _, _, _, -, -, -, hbaseline, -⟩ := id htested
  obtain ⟨w, -, rfl⟩ := Value.field_eq_some_iff.1 hbaseline
  -- The baseline is kept, and another one is given as realised.
  obtain ⟨v', f, hsame, htested', hcarries, -, hrealised, -⟩ :=
    exists_tested_of_unread htested 0 (w + 1) 0 0
  refine ⟨v', f, hsame, htested', hcarries, fun hconsistent => ?_⟩
  obtain ⟨-, -, -, hkept, -⟩ := sameReading_iff.1 hsame
  have hformula : f.baselineBytesFormula = w.toNat :=
    Option.some.inj (hcarries.baselineBytesFormula.symm.trans (hkept.trans hbaseline))
  have hdrift : (w + 1).toNat = w.toNat := by
    rw [← hrealised, hconsistent.realised_eq, ← hconsistent.formula_eq, hformula]
  exact absurd (UInt64.toNat_inj.1 hdrift) (by simp)

/-- A drift of a consistent vector that keeps the product of the numbers of queries and of
    levels is caught when it changes the baseline, or puts the minimum over it; one that
    keeps the baseline, when it changes the product, up to the wraparound, or puts the
    minimum over the baseline. -/
theorem tested_drift_iff {f f' : Figures} {v' : Value} (hcarries : Carries v f)
    (hconsistent : f.Consistent) (hcarries' : Carries v' f') :
    (f'.qQueries * f'.treeDepth = f.qQueries * f.treeDepth →
      (Tested overflowChecks v' ↔ f'.baselineBytesFormula = f.baselineBytesFormula ∧
        f'.minimumViableBytes ≤ f.baselineBytesFormula)) ∧
    (f'.baselineBytesFormula = f.baselineBytesFormula →
      (Tested overflowChecks v' ↔
        (overflowChecks = true → f'.qQueries * f'.treeDepth = f.qQueries * f.treeDepth) ∧
        f'.qQueries * f'.treeDepth % 2 ^ 59 = f.qQueries * f.treeDepth % 2 ^ 59 ∧
        f'.minimumViableBytes ≤ f.baselineBytesFormula)) := by
  have hlt := Value.lt_of_field hcarries.baselineBytesFormula
  have hformula := hconsistent.formula_eq
  rw [tested_iff_of_carries hcarries']
  generalize f'.qQueries * f'.treeDepth = product' at *
  generalize f.qQueries * f.treeDepth = product at *
  constructor
  · rintro rfl
    omega
  · intro hkept
    rw [hkept]
    -- The baseline is the product of the consistent vector, without any wraparound.
    cases overflowChecks with
    | false =>
      simp only [Bool.false_eq_true, false_implies, true_and]
      omega
    | true =>
      simp only [forall_const]
      omega

/-- For no reading of the fields the check reads is every vector it accepts consistent,
    unless the reading fails the tests: the fields it does not read may be any words. Of
    the drifts of a consistent vector, it catches those of the baseline, of the product of
    the numbers of queries and of levels, up to the wraparound, and those that put the
    minimum over the baseline. -/
theorem storage_checked_iff (overflowChecks : Bool) (v : Value) :
    ((∀ v', SameReading v v' → (∃ line, checkStorage overflowChecks v' = .ok line) →
        ∃ f, Carries v' f ∧ f.Consistent) ↔ ¬Tested overflowChecks v) ∧
    (Tested overflowChecks v → ∀ level realised noDedup assistance : UInt64,
      ∃ v' f, SameReading v v' ∧ (∃ line, checkStorage overflowChecks v' = .ok line) ∧
        Carries v' f ∧ f.predeterminedLevel = level.toNat ∧
        f.baselineBytesRealised = realised.toNat ∧ f.storeHeldBytesNoDedup = noDedup.toNat ∧
        f.assistanceBytes = assistance.toNat) ∧
    ∀ f v' f', Carries v f → f.Consistent → Carries v' f' →
      (f'.qQueries * f'.treeDepth = f.qQueries * f.treeDepth →
        ((∃ line, checkStorage overflowChecks v' = .ok line) ↔
          f'.baselineBytesFormula = f.baselineBytesFormula ∧
          f'.minimumViableBytes ≤ f.baselineBytesFormula)) ∧
      (f'.baselineBytesFormula = f.baselineBytesFormula →
        ((∃ line, checkStorage overflowChecks v' = .ok line) ↔
          (overflowChecks = true → f'.qQueries * f'.treeDepth = f.qQueries * f.treeDepth) ∧
          f'.qQueries * f'.treeDepth % 2 ^ 59 = f.qQueries * f.treeDepth % 2 ^ 59 ∧
          f'.minimumViableBytes ≤ f.baselineBytesFormula)) := by
  simp only [checkStorage_ok_iff]
  refine ⟨⟨?_, ?_⟩, exists_tested_of_unread, fun f v' f' => tested_drift_iff⟩
  · intro hall htested
    obtain ⟨v', f, hsame, htested', hcarries, hinconsistent⟩ := exists_inconsistent htested
    obtain ⟨f', hcarries', hconsistent⟩ := hall v' hsame htested'
    rw [hcarries.unique hcarries'] at hinconsistent
    exact hinconsistent hconsistent
  · intro hfails v' hsame htested'
    exact absurd (hsame.tested_iff.1 htested') hfails

/-- The committed vector, with any number of bytes for the labels. -/
def storageVector (assistanceBytes : ℕ) : Value :=
  .object [
    ("assistance_bytes", .ofNat assistanceBytes),
    ("baseline_bytes_formula", .ofNat 20480),
    ("baseline_bytes_realised", .ofNat 20480),
    ("minimum_viable_bytes", .ofNat 11264),
    ("n_leaves", .ofNat 1024),
    ("note", .string ("Timings are host-dependent (crypto-core/local) and omitted from " ++
      "the committed vector.")),
    ("predetermined_level", .ofNat 5),
    ("q_queries", .ofNat 64),
    ("retrieval_adversarial_bytes", .ofNat 328),
    ("retrieval_assisted_bytes", .ofNat 168),
    ("seed", .ofNat 2026053001),
    ("store_held_bytes_no_dedup", .ofNat 21504),
    ("store_held_bytes_upper_dedup", .ofNat 15424),
    ("tree_depth", .ofNat 10)]

theorem tested_storageVector (assistanceBytes : ℕ) : Tested true (storageVector assistanceBytes) :=
  ⟨1024, 64, 10, 20480, 11264, rfl, rfl, rfl, rfl, rfl, fun _ => by decide, rfl, by decide⟩

/-- The committed vector is accepted with labels of no bytes. -/
theorem drifted_vector_accepted : ¬∀ (overflowChecks : Bool) (v : Value),
    (∃ line, checkStorage overflowChecks v = .ok line) → ∃ f, Carries v f ∧ f.Consistent := by
  intro hall
  obtain ⟨f, hcarries, hconsistent⟩ :=
    hall true (storageVector 0) (checkStorage_ok_iff.2 (tested_storageVector 0))
  have hassistance : 0 = f.assistanceBytes := Option.some.inj hcarries.assistanceBytes
  have hn : 1024 = f.nLeaves := Option.some.inj hcarries.nLeaves
  have hk : 5 = f.predeterminedLevel := Option.some.inj hcarries.predeterminedLevel
  have hdepth : 10 = f.treeDepth := Option.some.inj hcarries.treeDepth
  have heq := hconsistent.assistance_eq
  rw [← hassistance, ← hn, ← hk, ← hdepth] at heq
  exact absurd heq (by decide)

end Vaa.Cli
