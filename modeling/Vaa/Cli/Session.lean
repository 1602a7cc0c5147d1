import Vaa.Cli.Selftest
import Vaa.Cli.Vectors
import Vaa.Footprint

/-!
# Sessions

The binary runs one command (`main`), which reads files and may write one. A session is a
list of such runs over the files of a disk, each leaving its file to the next ones
(`commands`); only `vaa prove` writes, the file it is given.

The bundle that `vaa prove` writes is accepted by `vaa verify` ever after, until a proof is
written over it, exactly if its index fits 32 bits (`bundle_verifies_iff`); the list of
records it was proved from may have changed.

Several users run commands on one disk. If no other user has a proof written to a file that
one of them reads, the commands of this user end as if they ran alone (`users_isolated`); if
none has one written to a file that another one reads or writes, the order in which the
users go does not matter (`sessions_agree`).
-/

namespace Vaa.Cli

open PairTree Merkle Json Footprint

/-! ## The binary -/

/-- `Command`. -/
inductive Command
  | selftest
  | reproduce
  | anchor (leaves : String)
  | prove (records : String) (index : ℕ) (out : String)
  | verify (bundle : String)
  | query (records : String) (index level : ℕ)
  deriving DecidableEq, Repr

/-- The libraries the binary calls, the text of an error of the standard one, and whether
    the build checks overflows. -/
structure Crates where
  sha256 : Bytes → Hash
  hexEncode : Bytes → String
  hexDecode : String → Except String Bytes
  tryFromIntError : String
  leavesFromStr : String → Except String LeavesFile
  recordsFromStr : String → Except String RecordsFile
  bundleFromStr : String → Except String ProofBundle
  toStringPretty : ProofBundle → Except String String
  valueFromStr : String → Except String Value
  overflowChecks : Bool

section Main

variable (crates : Crates) (pathExists : String → Bool)
  (readToString : String → Except String String)

/-- `cmd_prove`, on the libraries. -/
def Crates.prove (write : String → String → Except String Unit) (records : String) (index : ℕ)
    (out : String) : Result AnyhowError (String × List String) :=
  cmdProve crates.sha256 crates.hexEncode crates.hexDecode readToString crates.recordsFromStr
    crates.toStringPretty write records index out

/-- `main`. -/
def main (write : String → String → Except String Unit) (command : Command) :
    Result AnyhowError (List String) :=
  match command with
  | .selftest => cmdSelftest crates.sha256 crates.hexDecode
  | .reproduce => cmdReproduce pathExists readToString crates.valueFromStr crates.sha256
      crates.hexEncode crates.hexDecode crates.overflowChecks
  | .anchor leaves => cmdAnchor crates.sha256 crates.hexEncode crates.hexDecode readToString
      crates.leavesFromStr leaves
  | .prove records index out => do
    let (_, lines) ← crates.prove readToString write records index out
    return lines
  | .verify bundle => cmdVerify crates.sha256 crates.hexDecode crates.tryFromIntError
      readToString crates.bundleFromStr bundle
  | .query records index level => cmdQuery crates.sha256 crates.hexEncode crates.hexDecode
      crates.tryFromIntError readToString crates.recordsFromStr records index level

/-- The path and the text of the call of `fs::write`, if the command gets there. -/
def writeCall (command : Command) : Option (String × String) :=
  match command with
  | .prove records index out =>
    match crates.prove readToString (fun _ _ => .ok ()) records index out with
    | .ok (pretty, _) => some (out, pretty)
    | .error _ => none
  | _ => none

end Main

/-- The paths a command reads. -/
def Command.reads (command : Command) : List String :=
  match command with
  | selftest => []
  | reproduce => vectorPaths
  | anchor leaves => [leaves]
  | prove records _ _ => [records]
  | verify bundle => [bundle]
  | query records _ _ => [records]

/-- The path a command may write. -/
def Command.out (command : Command) : Option String :=
  match command with
  | prove _ _ out => some out
  | _ => none

/-! ## The disk -/

/-- What is read of a file: its text, or an error. -/
abbrev Content := Except String String

/-- The files, those that exist with their content. -/
abbrev Disk (φ : Type) := φ → Option Content

/-- How a call of `fs::write` ends: with the text in the file, or with an error and whatever
    is then there. -/
inductive WriteOutcome
  | written
  | failed (error : String) (left : Option Content)
  deriving DecidableEq

/-- The result of the call. -/
def WriteOutcome.result (outcome : WriteOutcome) : Except String Unit :=
  match outcome with
  | written => .ok ()
  | failed error _ => .error error

/-- What the call leaves in the file. -/
def WriteOutcome.left (outcome : WriteOutcome) (text : String) : Option Content :=
  match outcome with
  | written => some (.ok text)
  | failed _ left => left

/-- A run of the binary, and how its call of `fs::write` ends, if it gets there. -/
structure Invocation where
  command : Command
  write : WriteOutcome
  deriving DecidableEq

section Disk

variable {φ : Type} (locate : String → φ) (disk : Disk φ)

/-- `Path::exists`. -/
def pathExists (path : String) : Bool := (disk (locate path)).isSome

/-- `fs::read_to_string`. -/
def readToString (path : String) : Except String String :=
  match disk (locate path) with
  | some content => content
  | none => .error "No such file or directory (os error 2)"

end Disk

/-! ## What a command depends on -/

/-- A command depends on the files it reads only. -/
theorem main_congr {crates : Crates} {pathExists pathExists' : String → Bool}
    {readToString readToString' : String → Except String String}
    {write : String → String → Except String Unit} {command : Command}
    (hexists : ∀ path ∈ command.reads, pathExists path = pathExists' path)
    (hread : ∀ path ∈ command.reads, readToString path = readToString' path) :
    main crates pathExists readToString write command =
      main crates pathExists' readToString' write command := by
  cases command with
  | selftest => rfl
  | reproduce =>
    simp only [Command.reads, vectorPaths, List.forall_mem_cons] at hexists hread
    simp only [main, cmdReproduce, reproduceVector, hexists, hread]
  | anchor leaves => simp only [main, cmdAnchor, loadLeaves, hread leaves List.mem_cons_self]
  | prove records index out =>
    simp only [main, Crates.prove, cmdProve, loadRecords, hread records List.mem_cons_self]
  | verify bundle => simp only [main, cmdVerify, hread bundle List.mem_cons_self]
  | query records index level =>
    simp only [main, cmdQuery, loadRecords, hread records List.mem_cons_self]

/-- So does what it writes. -/
theorem writeCall_congr {crates : Crates}
    {readToString readToString' : String → Except String String} {command : Command}
    (hread : ∀ path ∈ command.reads, readToString path = readToString' path) :
    writeCall crates readToString command = writeCall crates readToString' command := by
  cases command with
  | prove records index out =>
    simp only [writeCall, Crates.prove, cmdProve, loadRecords, hread records List.mem_cons_self]
  | _ => rfl

/-- A command writes the path it is given. -/
theorem mem_out_of_writeCall {crates : Crates} {readToString : String → Except String String}
    {command : Command} {out text : String}
    (hcall : writeCall crates readToString command = some (out, text)) : out ∈ command.out := by
  cases command with
  | prove records index out' =>
    rw [writeCall] at hcall
    split at hcall
    · cases hcall
      exact rfl
    · cases hcall
  | _ => cases hcall

/-! ## Commands as actions on the disk -/

section Actions

variable {φ : Type} [DecidableEq φ] (crates : Crates) (locate : String → φ)

/-- The disk after a run. -/
def nextDisk (inv : Invocation) (disk : Disk φ) : Disk φ :=
  match writeCall crates (readToString locate disk) inv.command with
  | some (out, text) => Function.update disk (locate out) (inv.write.left text)
  | none => disk

/-- The runs of the binary, as actions on the files. -/
def commands : Actions φ (Option Content) Invocation (Result AnyhowError (List String)) where
  shows inv disk := main crates (pathExists locate disk) (readToString locate disk)
    (fun _ _ => inv.write.result) inv.command
  next := nextDisk crates locate
  reads inv := {file | ∃ path ∈ inv.command.reads, locate path = file}
  writes inv := {file | ∃ path ∈ inv.command.out, locate path = file}
  next_of_notMem inv disk file hfile := by
    rcases hcall : writeCall crates (readToString locate disk) inv.command with - | ⟨out, text⟩
    · rw [nextDisk, hcall]
    · have hne : file ≠ locate out := by
        rintro rfl
        exact hfile ⟨out, mem_out_of_writeCall hcall, rfl⟩
      rw [nextDisk, hcall]
      exact Function.update_of_ne hne _ _
  shows_congr inv disk disk' hdisk := by
    refine main_congr (fun path hpath => ?_) fun path hpath => ?_
    · rw [pathExists, pathExists, hdisk ⟨path, hpath, rfl⟩]
    · rw [readToString, readToString, hdisk ⟨path, hpath, rfl⟩]
  next_congr inv disk disk' file hdisk hfile := by
    have hcall : writeCall crates (readToString locate disk) inv.command =
        writeCall crates (readToString locate disk') inv.command := by
      refine writeCall_congr fun path hpath => ?_
      rw [readToString, readToString, hdisk ⟨path, hpath, rfl⟩]
    rcases hcall' : writeCall crates (readToString locate disk') inv.command with
      - | ⟨out, text⟩
    · rw [nextDisk, nextDisk, hcall, hcall']
      exact hfile
    · rw [nextDisk, nextDisk, hcall, hcall']
      by_cases heq : file = locate out
      · simp only [heq, Function.update_self]
      · simp only [Function.update_of_ne heq, hfile]

end Actions

/-! ## Bundles on disk -/

/-- What `vaa verify` prints for the bundle of a record, if its index fits 32 bits. -/
theorem verifyBundle_bundleOf_eq_ok_iff {sha256 : Bytes → Hash} {hexEncode : Bytes → String}
    {hexDecode : String → Except String Bytes} {tryFromIntError : String} {records : List Bytes}
    {i : ℕ} {record : Bytes} {lines : List String} (hhex : HexCodec hexEncode hexDecode)
    (hrecord : records[i]? = some record) :
    verifyBundle sha256 hexDecode tryFromIntError (bundleOf sha256 hexEncode records i record) =
        .ok lines ↔
      i < 2 ^ 32 ∧ lines = verified (bundleOf sha256 hexEncode records i record)
        (Bsv.doubleSha256 sha256 record) := by
  have hprinted (lines : List String) (hlines : verifyBundle sha256 hexDecode tryFromIntError
      (bundleOf sha256 hexEncode records i record) = .ok lines) :
      i < 2 ^ 32 ∧ lines = verified (bundleOf sha256 hexEncode records i record)
        (Bsv.doubleSha256 sha256 record) := by
    rw [verifyBundle, Result.bind_eq_ok_iff] at hlines
    obtain ⟨⟨leaf, ev⟩, hcheck, hreturn⟩ := hlines
    obtain ⟨-, hindex, root, siblings, hdecodes, -⟩ := checkBundle_eq_ok_iff.1 hcheck
    obtain ⟨rfl, -⟩ := hdecodes.unique (decodes_bundleOf hhex records i record)
    exact ⟨hindex, (Except.ok.inj hreturn).symm⟩
  constructor
  · exact hprinted lines
  · rintro ⟨hindex, rfl⟩
    obtain ⟨lines, hlines⟩ : ∃ lines, verifyBundle sha256 hexDecode tryFromIntError
        (bundleOf sha256 hexEncode records i record) = .ok lines :=
      verifyBundle_bundleOf hhex hrecord hindex tryFromIntError
    rwa [← (hprinted lines hlines).2]

/-- A proof ends well when the records are loaded and the bundle of the one at the index is
    written. -/
theorem prove_eq_ok_iff {crates : Crates} {readToString : String → Except String String}
    {write : String → String → Except String Unit} {recordsPath out pretty : String} {index : ℕ}
    {lines : List String} :
    crates.prove readToString write recordsPath index out = .ok (pretty, lines) ↔
      ∃ records record, loadRecords crates.sha256 crates.hexDecode readToString
          crates.recordsFromStr recordsPath = .ok (records, leavesOf crates.sha256 records) ∧
        records[index]? = some record ∧ crates.toStringPretty
          (bundleOf crates.sha256 crates.hexEncode records index record) = .ok pretty ∧
        write out pretty = .ok () ∧
        lines = [s!"wrote proof bundle ({pretty.utf8ByteSize} bytes) to {out}"] := by
  simp only [Crates.prove, cmdProve, Result.bind_eq_ok_iff, Result.context_eq_ok_iff,
    Result.foreign_eq_ok_iff]
  constructor
  · rintro ⟨⟨records, leaves⟩, hload, bundle, hbundle, pretty', hpretty, ⟨⟩, hwrite, hreturn⟩
    obtain rfl := loadRecords_leaves hload
    obtain ⟨rfl, rfl⟩ := Prod.mk.inj (Except.ok.inj hreturn)
    have hlt : index < records.length := by
      by_contra hle
      rw [proveBundle, if_pos (Nat.not_lt.1 hle)] at hbundle
      cases hbundle
    have hrecord := List.getElem?_eq_getElem hlt
    rw [proveBundle_eq _ _ hrecord] at hbundle
    obtain rfl := Except.ok.inj hbundle
    exact ⟨records, _, hload, hrecord, hpretty, hwrite, rfl⟩
  · rintro ⟨records, record, hload, hrecord, hpretty, hwrite, rfl⟩
    exact ⟨_, hload, _, proveBundle_eq _ _ hrecord, _, hpretty, (), hwrite, rfl⟩

section Session

variable {φ : Type} [DecidableEq φ]

/-- The file `vaa prove` writes holds its bundle until a proof is written over it. -/
theorem readToString_of_kept {crates : Crates} {locate : String → φ} {disk : Disk φ}
    {inv : Invocation} {after : List Invocation} {out path text : String}
    (hcall : writeCall crates (readToString locate disk) inv.command = some (out, text))
    (hwritten : inv.write = .written)
    (hkept : ∀ inv ∈ after, ∀ other ∈ inv.command.out, locate other ≠ locate out)
    (hpath : locate path = locate out) :
    readToString locate ((commands crates locate).final (inv :: after) disk) path = .ok text := by
  -- The file is left alone by every run after the proof.
  have hframe (inv) (hinv : inv ∈ after) :
      locate out ∉ (commands crates locate).writes inv := by
    rintro ⟨other, hother, heq⟩
    exact hkept inv hinv other hother heq
  have hnext : (commands crates locate).next inv disk =
      Function.update disk (locate out) (some (.ok text)) := by
    change nextDisk crates locate inv disk = _
    rw [nextDisk, hcall, hwritten]
    rfl
  rw [readToString, hpath, Actions.final_cons, Actions.final_frame _ hframe, hnext,
    Function.update_self]

/-- A bundle written by `vaa prove` is accepted ever after, as long as no proof is written
    over it: with the root of the records loaded for the proof, whatever their file has
    become, and exactly if its index fits 32 bits. -/
theorem bundle_verifies_iff (crates : Crates) (locate : String → φ) (disk : Disk φ)
    (before after : List Invocation) (recordsPath : String) (index : ℕ) (out path : String)
    (printed : List String) (hhex : HexCodec crates.hexEncode crates.hexDecode)
    (hjson : ∀ bundle text, crates.toStringPretty bundle = .ok text →
      crates.bundleFromStr text = .ok bundle)
    (hproved : (commands crates locate).shows
      { command := .prove recordsPath index out, write := .written }
      ((commands crates locate).final before disk) = .ok printed)
    (hkept : ∀ inv ∈ after, ∀ other ∈ inv.command.out, locate other ≠ locate out)
    (hpath : locate path = locate out) :
    ∃ records record, loadRecords crates.sha256 crates.hexDecode
        (readToString locate ((commands crates locate).final before disk)) crates.recordsFromStr
        recordsPath = .ok (records, leavesOf crates.sha256 records) ∧
      records[index]? = some record ∧
      ∀ write lines, (commands crates locate).shows { command := .verify path, write := write }
        ((commands crates locate).final
          (before ++ { command := .prove recordsPath index out, write := .written } :: after)
          disk) = .ok lines ↔
        index < 2 ^ 32 ∧ lines =
          verified (bundleOf crates.sha256 crates.hexEncode records index record)
            (Bsv.doubleSha256 crates.sha256 record) := by
  obtain ⟨⟨pretty, told⟩, hprove, -⟩ := Result.bind_eq_ok_iff.1 hproved
  obtain ⟨records, record, hload, hrecord, hpretty, -⟩ := prove_eq_ok_iff.1 hprove
  refine ⟨records, record, hload, hrecord, fun write lines => ?_⟩
  have hcall : writeCall crates (readToString locate ((commands crates locate).final before disk))
      (.prove recordsPath index out) = some (out, pretty) := by
    -- A write that ends well is the one `writeCall` asks for.
    simp only [WriteOutcome.result] at hprove
    simp only [writeCall, hprove]
  have hread : readToString locate ((commands crates locate).final
      ({ command := .prove recordsPath index out, write := .written } :: after)
      ((commands crates locate).final before disk)) path = .ok pretty :=
    readToString_of_kept hcall rfl hkept hpath
  rw [Actions.final_append, ← verifyBundle_bundleOf_eq_ok_iff hhex hrecord,
    ← cmdVerify_eq hread (hjson _ _ hpretty)]
  rfl

/-- The file of three records. -/
def fileOfThree : String := "\x7b\"records_hex\": [\"61\", \"62\", \"63\"]\x7d"

/-- The libraries, on this file and on the bundle of its last record. -/
def cratesOfThree : Crates where
  sha256 := Sha256.digest
  hexEncode := Hex.encode
  hexDecode := Hex.decode
  tryFromIntError := outOfRange
  leavesFromStr _ := .error "missing field leaves_display_be"
  recordsFromStr text :=
    if text = fileOfThree then .ok { recordsHex := ["61", "62", "63"] }
    else .error "missing field records_hex"
  bundleFromStr := parseLast
  toStringPretty := prettyLast
  valueFromStr _ := .error "expected value at line 1 column 1"
  overflowChecks := true

/-- The disk with this file only. -/
def diskOfThree : Disk String := fun path =>
  if path = "records.json" then some (.ok fileOfThree) else none

theorem bundle_verifies_iff_last : ∃ lines, (commands cratesOfThree id).shows
    { command := .verify "bundle.json", write := .written }
    ((commands cratesOfThree id).final
      [{ command := .prove "records.json" 2 "bundle.json", write := .written },
        { command := .prove "records.json" 7 "records.json", write := .written }] diskOfThree) =
      .ok lines := by
  have hload : loadRecords Sha256.digest Hex.decode (readToString id diskOfThree)
      cratesOfThree.recordsFromStr "records.json" =
      .ok (threeRecords, leavesOf Sha256.digest threeRecords) :=
    loadRecords_of_decode rfl rfl (by decide +kernel)
  have hpretty : cratesOfThree.toStringPretty (bundleOf cratesOfThree.sha256
      cratesOfThree.hexEncode threeRecords 2 [0x63]) = .ok lastFile := by
    have hlast : bundleOf cratesOfThree.sha256 cratesOfThree.hexEncode threeRecords 2 [0x63] =
        lastBundle := bundleOf_last
    rw [hlast]
    change prettyLast lastBundle = .ok lastFile
    rw [prettyLast, if_pos rfl]
  obtain ⟨printed, hproved⟩ : ∃ printed, (commands cratesOfThree id).shows
      { command := .prove "records.json" 2 "bundle.json", write := .written } diskOfThree =
        .ok printed := by
    obtain ⟨told, hprove⟩ : ∃ told, cratesOfThree.prove (readToString id diskOfThree)
        (fun _ _ => .ok ()) "records.json" 2 "bundle.json" = .ok (lastFile, told) :=
      ⟨_, prove_eq_ok_iff.2 ⟨threeRecords, [0x63], hload, rfl, hpretty, rfl, rfl⟩⟩
    exact ⟨_, Result.bind_eq_ok_iff.2 ⟨_, hprove, rfl⟩⟩
  obtain ⟨records, record, -, -, hiff⟩ := bundle_verifies_iff cratesOfThree id diskOfThree []
    [{ command := .prove "records.json" 7 "records.json", write := .written }] "records.json" 2
    "bundle.json" "bundle.json" printed Hex.hexCodec parseLast_prettyLast hproved (by decide) rfl
  exact ⟨_, (hiff .written _).2 ⟨by decide, rfl⟩⟩

/-! ## Users of one disk -/

/-- If the other users have no proof written to a file that a user reads, the commands of
    the user end as if run alone, and so does every file that only the user may write. -/
theorem users_isolated {ι : Type} [DecidableEq ι] (crates : Crates) (locate : String → φ)
    (steps : List (ι × Invocation)) (user : ι) (disk : Disk φ)
    (hapart : ∀ c ∈ steps, c.1 ≠ user → ∀ out ∈ c.2.command.out, ∀ d ∈ steps, d.1 = user →
      ∀ path ∈ d.2.command.reads, locate out ≠ locate path) :
    ((commands crates locate).shown steps disk).filter (fun c => c.1 = user) =
      (commands crates locate).shown (steps.filter fun c => c.1 = user) disk ∧
    ∀ file, (∀ c ∈ steps, c.1 ≠ user → ∀ out ∈ c.2.command.out, locate out ≠ file) →
      (commands crates locate).final (steps.map Prod.snd) disk file =
        (commands crates locate).final ((steps.filter fun c => c.1 = user).map Prod.snd) disk
          file := by
  have hundisturbed : (commands crates locate).Undisturbed steps user := by
    intro c hc hne d hd huser
    -- Two paths may lead to one file; they are kept apart as files.
    rintro file ⟨out, hout, rfl⟩ ⟨path, hpath, heq⟩
    exact hapart c hc hne out hout d hd huser path hpath heq.symm
  have hagree := Actions.agree_refl (A := commands crates locate) steps user disk
  refine ⟨Actions.shown_filter hundisturbed hagree, fun file hfile => ?_⟩
  refine Actions.final_filter hundisturbed hagree rfl fun c hc hne => ?_
  rintro ⟨out, hout, heq⟩
  exact hfile c hc hne out hout heq

theorem users_isolated_two : ((commands cratesOfThree id).shown
      [(1, { command := .prove "records.json" 2 "bundle.json", write := .written }),
        (2, { command := .prove "records.json" 0 "other.json", write := .failed "" none }),
        (1, { command := .verify "bundle.json", write := .written })] diskOfThree).filter
      (fun c => c.1 = 1) =
    (commands cratesOfThree id).shown
      [(1, { command := .prove "records.json" 2 "bundle.json", write := .written }),
        (1, { command := .verify "bundle.json", write := .written })] diskOfThree :=
  (users_isolated cratesOfThree id
    [(1, { command := .prove "records.json" 2 "bundle.json", write := .written }),
      (2, { command := .prove "records.json" 0 "other.json", write := .failed "" none }),
      (1, { command := .verify "bundle.json", write := .written })] 1 diskOfThree (by decide)).1

/-- If no user has a proof written to a file that another one reads or writes, the order in
    which the users run their commands changes neither how these end nor the files. -/
theorem sessions_agree {ι : Type} [DecidableEq ι] (crates : Crates) (locate : String → φ)
    (steps steps' : List (ι × Invocation)) (disk : Disk φ)
    (hparts : Actions.SameParts steps steps')
    (hapart : ∀ c ∈ steps, ∀ d ∈ steps, c.1 ≠ d.1 → ∀ out ∈ c.2.command.out,
      (∀ path ∈ d.2.command.reads, locate out ≠ locate path) ∧
        ∀ other ∈ d.2.command.out, locate out ≠ locate other) :
    (commands crates locate).final (steps.map Prod.snd) disk =
      (commands crates locate).final (steps'.map Prod.snd) disk ∧
    ∀ user, ((commands crates locate).shown steps disk).filter (fun c => c.1 = user) =
      ((commands crates locate).shown steps' disk).filter fun c => c.1 = user := by
  have hrace : (commands crates locate).RaceFree steps := by
    intro c hc d hd hne
    rintro file ⟨out, hout, rfl⟩
    constructor
    · rintro ⟨path, hpath, heq⟩
      exact (hapart c hc d hd hne out hout).1 path hpath heq.symm
    · rintro ⟨other, hother, heq⟩
      exact (hapart c hc d hd hne out hout).2 other hother heq.symm
  exact ⟨Actions.final_eq_of_raceFree hrace hparts disk,
    Actions.shown_eq_of_raceFree hrace hparts disk⟩

theorem sessions_agree_two : (commands cratesOfThree id).final
      [{ command := .prove "records.json" 2 "bundle.json", write := .written },
        { command := .prove "records.json" 0 "other.json", write := .written }] diskOfThree =
    (commands cratesOfThree id).final
      [{ command := .prove "records.json" 0 "other.json", write := .written },
        { command := .prove "records.json" 2 "bundle.json", write := .written }] diskOfThree :=
  (sessions_agree cratesOfThree id
    [(true, { command := .prove "records.json" 2 "bundle.json", write := .written }),
      (false, { command := .prove "records.json" 0 "other.json", write := .written })]
    [(false, { command := .prove "records.json" 0 "other.json", write := .written }),
      (true, { command := .prove "records.json" 2 "bundle.json", write := .written })]
    diskOfThree (fun i => by cases i <;> rfl) (by decide)).1

end Session

end Vaa.Cli
