import Vaa.Api

/-!
# Clients of one store

Several clients anchor into one store, in some order (`Schedule`), each under keys of its
own. What the store serves under the keys of a client is what it would serve had the
client been alone, whatever the others anchor (`clients_isolated`); the proof assistance
of a root is kept apart in the same way if no two clients anchor it. Then the store does
not depend on the order in which the calls of different clients arrive
(`schedules_agree`).
-/

namespace Vaa.ProofStore

open PairTree Merkle KeyedLog

/-- The calls of the clients, in the order in which they reach the store. -/
abbrev Schedule (ι : Type*) := List (ι × AnchorCall)

namespace Schedule

variable {ι : Type*}

/-- The calls that reach the store. -/
def calls (s : Schedule ι) : List AnchorCall := s.map Prod.snd

/-- The calls of one client. -/
def callsOf [DecidableEq ι] (s : Schedule ι) (i : ι) : List AnchorCall :=
  (s.filter fun c => c.1 = i).map Prod.snd

/-- Only the client `i` anchors under the key. -/
def OwnsKey (s : Schedule ι) (i : ι) (key : IndexKey) : Prop := ∀ c ∈ s, c.2.key = key → c.1 = i

/-- Only the client `i` anchors the root. -/
def OwnsRoot (sha256 : Bytes → Hash) (s : Schedule ι) (i : ι) (r : Hash) : Prop :=
  ∀ c ∈ s, merkleRoot (Merkle.hashPair sha256) c.2.leaves = .ok r → c.1 = i

/-- No two clients anchor under one key. -/
def KeysApart (s : Schedule ι) : Prop := ∀ c ∈ s, s.OwnsKey c.1 c.2.key

instance decidableOwnsKey [DecidableEq ι] (s : Schedule ι) (i : ι) (key : IndexKey) :
    Decidable (s.OwnsKey i key) :=
  inferInstanceAs (Decidable (∀ c ∈ s, c.2.key = key → c.1 = i))

instance decidableKeysApart [DecidableEq ι] (s : Schedule ι) : Decidable s.KeysApart :=
  inferInstanceAs (Decidable (∀ c ∈ s, s.OwnsKey c.1 c.2.key))

/-- No two clients anchor one root. -/
def RootsApart (sha256 : Bytes → Hash) (s : Schedule ι) : Prop :=
  ∀ c ∈ s, ∀ r, merkleRoot (Merkle.hashPair sha256) c.2.leaves = .ok r → s.OwnsRoot sha256 c.1 r

end Schedule

variable {ι : Type*} {sha256 : Bytes → Hash} {s s' : Schedule ι} {i : ι} {key : IndexKey}
  {r : Hash}

/-! ## The logs of the clients -/

/-- The entry a successful call adds to the log. -/
def AnchorCall.anchored (sha256 : Bytes → Hash) (call : AnchorCall) : Anchored where
  call := call
  root := rootOf (Merkle.hashPair sha256) call.leaves

/-- The calls of a schedule that name a leaf. -/
def Schedule.naming (s : Schedule ι) : Schedule ι :=
  s.filter fun c => c.2.leafIndex < c.2.leaves.length

theorem log_calls (sha256 : Bytes → Hash) (k : ℕ) (s : Schedule ι) :
    (run sha256 k s.calls).log = s.naming.map fun c => c.2.anchored sha256 := by
  rw [log_run, Schedule.calls, List.filter_map, List.map_map]
  rfl

/-- The log of a client alone is the part of the log with its calls. -/
theorem log_callsOf [DecidableEq ι] (sha256 : Bytes → Hash) (k : ℕ) (s : Schedule ι) (i : ι) :
    (run sha256 k (s.callsOf i)).log =
      (s.naming.filter fun c => c.1 = i).map fun c => c.2.anchored sha256 := by
  have hlog := log_calls sha256 k (s.filter fun c => c.1 = i)
  rw [Schedule.naming, List.filter_comm] at hlog
  exact hlog

theorem mem_of_mem_naming {c : ι × AnchorCall} (hc : c ∈ s.naming) :
    c ∈ s ∧ c.2.leafIndex < c.2.leaves.length := by
  simpa [Schedule.naming] using hc

/-- The last write under a name that only one client uses is the client's own. -/
theorem last_callsOf [DecidableEq ι] {κ : Type*} [DecidableEq κ] (name : Anchored → κ) (k : ℕ)
    {n : κ} (hname : ∀ c ∈ s.naming, name (c.2.anchored sha256) = n → c.1 = i) :
    last name (run sha256 k s.calls).log n = last name (run sha256 k (s.callsOf i)).log n := by
  rw [log_calls, log_callsOf, last_map, last_map, last_filter]
  intro c hc hcn
  exact decide_eq_true (hname c hc hcn)

section Owned

variable [DecidableEq ι]

theorem lastUnder_callsOf (sha256 : Bytes → Hash) (k : ℕ) (hown : s.OwnsKey i key) :
    (run sha256 k s.calls).lastUnder key = (run sha256 k (s.callsOf i)).lastUnder key :=
  last_callsOf (fun e => e.call.key) k fun c hc => hown c (mem_of_mem_naming hc).1

theorem lastAt_callsOf (k : ℕ) (hown : s.OwnsRoot sha256 i r) :
    (run sha256 k s.calls).lastAt r = (run sha256 k (s.callsOf i)).lastAt r := by
  refine last_callsOf (fun e => e.root) k fun c hc hroot => ?_
  obtain ⟨hmem, hlt⟩ := mem_of_mem_naming hc
  exact hown c hmem (by rw [merkleRoot_eq _ (ne_nil_of_lt hlt)]; exact congrArg _ hroot)

/-- The proof served under a key of a client is the one of the client alone. -/
theorem storage_callsOf (k : ℕ) (hown : s.OwnsKey i key) :
    (run sha256 k s.calls).store.storage key = (run sha256 k (s.callsOf i)).store.storage key := by
  have hlast := lastUnder_callsOf sha256 k hown
  rw [(replays_run sha256 k _).storage, (replays_run sha256 k _).storage, replay_apply,
    replay_apply]
  exact congrArg _ hlast

/-- The labels served for a root of a client are those of the client alone. -/
theorem assistance_callsOf (k : ℕ) (hown : s.OwnsRoot sha256 i r) :
    (run sha256 k s.calls).store.assistanceByRoot r =
      (run sha256 k (s.callsOf i)).store.assistanceByRoot r := by
  have hlast := lastAt_callsOf k hown
  rw [(replays_run sha256 k _).assistance, (replays_run sha256 k _).assistance, replay_apply,
    replay_apply]
  exact congrArg _ hlast

end Owned

/-! ## Isolation -/

/-- Whatever the other clients anchor, a client finds under its keys what it would find
    alone: the same proof, the same outcome of every audit, and for the roots only it
    anchors, the same outcome of assisted verification. -/
theorem clients_isolated [DecidableEq ι] (sha256 : Bytes → Hash) (k : ℕ) (s : Schedule ι)
    (i : ι) :
    let store := (run sha256 k s.calls).store
    let alone := (run sha256 k (s.callsOf i)).store
    (∀ key, s.OwnsKey i key → store.query key = alone.query key) ∧
    (∀ bundle : AuditBundle, s.OwnsKey i bundle.indexKey →
      (AuditVerifier.new store).verify sha256 bundle =
        (AuditVerifier.new alone).verify sha256 bundle) ∧
    ∀ x stored, s.OwnsRoot sha256 i stored.expectedRoot →
      store.verifyWithAssistance sha256 x stored =
        alone.verifyWithAssistance sha256 x stored := by
  have hquery (key : IndexKey) (hown : s.OwnsKey i key) :
      (run sha256 k s.calls).store.query key = (run sha256 k (s.callsOf i)).store.query key :=
    congrArg (Result.okOr · _) (storage_callsOf k hown)
  refine ⟨hquery, fun bundle hown => ?_, fun x stored hown => ?_⟩
  · simp only [AuditVerifier.verify, AuditVerifier.new, hquery _ hown]
  · have hlabels := assistance_callsOf k hown
    simp only [verifyWithAssistance, proofAssistanceFor, hlabels]

/-! ## Orders of arrival -/

/-- What the clients of a schedule keep apart is owned, if there is any client. -/
theorem Schedule.exists_owner {κ : Type*} {uses : ι × AnchorCall → κ → Prop}
    (hapart : ∀ c ∈ s, ∀ n, uses c n → ∀ d ∈ s, uses d n → d.1 = c.1) (hne : s ≠ [])
    (n : κ) : ∃ i, ∀ c ∈ s, uses c n → c.1 = i := by
  by_cases hused : ∃ c ∈ s, uses c n
  · obtain ⟨c, hc, hn⟩ := hused
    exact ⟨c.1, hapart c hc n hn⟩
  · -- What nobody uses belongs to anybody.
    push Not at hused
    obtain ⟨c, -⟩ := List.exists_mem_of_ne_nil s hne
    exact ⟨c.1, fun d hd hn => absurd hn (hused d hd)⟩

theorem Schedule.KeysApart.exists_owner (hkeys : s.KeysApart) (hne : s ≠ []) (key : IndexKey) :
    ∃ i, s.OwnsKey i key := by
  have hapart : ∀ c ∈ s, ∀ key, c.2.key = key → ∀ d ∈ s, d.2.key = key → d.1 = c.1 := by
    rintro c hc _ rfl
    exact hkeys c hc
  exact Schedule.exists_owner hapart hne key

theorem Schedule.RootsApart.exists_owner (hroots : s.RootsApart sha256) (hne : s ≠ []) (r : Hash) :
    ∃ i, s.OwnsRoot sha256 i r := by
  have hapart : ∀ c ∈ s, ∀ r, merkleRoot (Merkle.hashPair sha256) c.2.leaves = .ok r →
      ∀ d ∈ s, merkleRoot (Merkle.hashPair sha256) d.2.leaves = .ok r → d.1 = c.1 := hroots
  exact Schedule.exists_owner hapart hne r

section Orders

variable [DecidableEq ι]

theorem mem_callsOf {i : ι} {call : AnchorCall} : call ∈ s.callsOf i ↔ (i, call) ∈ s := by
  simp [Schedule.callsOf]

/-- A schedule of the same calls by the same clients has the same entries. -/
theorem mem_of_callsOf_eq (hcalls : ∀ i, s.callsOf i = s'.callsOf i) {c : ι × AnchorCall}
    (hc : c ∈ s') : c ∈ s := by
  have hmem : c.2 ∈ s'.callsOf c.1 := mem_callsOf.2 hc
  rwa [← hcalls, mem_callsOf] at hmem

/-- Clients that keep their keys and their roots apart end with one store, in whatever
    order their calls arrive: each proof and each label is that of its client alone. -/
theorem schedules_agree (sha256 : Bytes → Hash) (k : ℕ) (s s' : Schedule ι)
    (hcalls : ∀ i, s.callsOf i = s'.callsOf i) (hkeys : s.KeysApart)
    (hroots : s.RootsApart sha256) :
    (run sha256 k s.calls).store = (run sha256 k s'.calls).store := by
  have hmem : ∀ c ∈ s', c ∈ s := fun c hc => mem_of_callsOf_eq hcalls hc
  rcases eq_or_ne s [] with rfl | hne
  · obtain rfl : s' = [] := List.eq_nil_iff_forall_not_mem.2 fun c hc => by simpa using hmem c hc
    rfl
  · have hρ := replays_run sha256 k s.calls
    have hρ' := replays_run sha256 k s'.calls
    have hstorage : (run sha256 k s.calls).store.storage =
        (run sha256 k s'.calls).store.storage := by
      funext key
      obtain ⟨i, hown⟩ := hkeys.exists_owner hne key
      have hown' : s'.OwnsKey i key := fun c hc => hown c (hmem c hc)
      rw [storage_callsOf k hown, storage_callsOf k hown', hcalls]
    have hassistance : (run sha256 k s.calls).store.assistanceByRoot =
        (run sha256 k s'.calls).store.assistanceByRoot := by
      funext r
      obtain ⟨i, hown⟩ := hroots.exists_owner hne r
      have hown' : s'.OwnsRoot sha256 i r := fun c hc => hown c (hmem c hc)
      rw [assistance_callsOf k hown, assistance_callsOf k hown', hcalls]
    exact ProofStore.mk.injEq .. ▸ ⟨hρ.level.trans hρ'.level.symm, hstorage, hassistance⟩

end Orders

/-- One leaf, anchored alone. -/
def singleCall : AnchorCall where
  key := keyOfThree
  leaves := [Vector.replicate 32 1]
  leafIndex := 0

theorem rootsApart_two :
    Schedule.RootsApart Sha256.digest [(true, threeCall), (false, singleCall)] := by
  have hne : merkleRoot (Merkle.hashPair Sha256.digest) threeCall.leaves ≠
      merkleRoot (Merkle.hashPair Sha256.digest) singleCall.leaves := by
    decide +kernel
  intro c hc r hroot c' hc' hroot'
  simp only [List.mem_cons, List.not_mem_nil, or_false] at hc hc'
  rcases hc with rfl | rfl <;> rcases hc' with rfl | rfl
  · rfl
  · exact absurd (hroot.trans hroot'.symm) hne
  · exact absurd (hroot'.trans hroot.symm) hne
  · rfl

theorem schedules_agree_two :
    (run Sha256.digest 1 [threeCall, singleCall]).store =
      (run Sha256.digest 1 [singleCall, threeCall]).store :=
  schedules_agree Sha256.digest 1 [(true, threeCall), (false, singleCall)]
    [(false, singleCall), (true, threeCall)] (by decide) (by decide) rootsApart_two

end Vaa.ProofStore
