import Vaa.ProofStore.Assistance
import Vaa.KeyedLog

/-!
# Runs of the store

A run anchors leaves one call after the other, from an empty store, and logs the
calls that succeed with the roots they return. The proofs of the store are the log
replayed under the index keys, its proof assistance the log replayed under the
roots (`Replays`), whatever the calls: the failed ones write nothing.

So a key serves the proof of its last successful call, but the labels of the last
successful call *with the same root*, which may be over another tree: assisted
verification of the proof works exactly when these labels have the node above the
leaf (`assisted_iff`).
-/

namespace Vaa.ProofStore

open PairTree Merkle KeyedLog

/-- The arguments of a call of `anchor`. -/
structure AnchorCall where
  key : IndexKey
  leaves : List Hash
  leafIndex : ℕ
  deriving DecidableEq

/-- A successful call of `anchor`, with the root it returned. -/
structure Anchored where
  call : AnchorCall
  root : Hash
  deriving DecidableEq

/-- A store, with the log of its successful calls. -/
structure Run where
  store : ProofStore
  log : List Anchored

/-- One more call. -/
def Run.anchor (sha256 : Bytes → Hash) (ρ : Run) (call : AnchorCall) : Run :=
  match ρ.store.anchor sha256 call.key call.leaves call.leafIndex with
  | (store, .ok root) => { store := store, log := ρ.log ++ [{ call := call, root := root }] }
  | (store, .error _) => { store := store, log := ρ.log }

/-- The run of the calls, from an empty store. -/
def run (sha256 : Bytes → Hash) (k : ℕ) (calls : List AnchorCall) : Run :=
  calls.foldl (Run.anchor sha256) { store := new k, log := [] }

/-- The most recent successful call under a key. -/
def Run.lastUnder (ρ : Run) (key : IndexKey) : Option Anchored :=
  last (fun e => e.call.key) ρ.log key

/-- The most recent successful call that returned a root. -/
def Run.lastAt (ρ : Run) (root : Hash) : Option Anchored := last (fun e => e.root) ρ.log root

variable {sha256 : Bytes → Hash} {k : ℕ} {ρ : Run} {key : IndexKey} {e : Anchored}

/-! ## The maps of the store -/

/-- The proof stored by a successful call. -/
def Anchored.stored (sha256 : Bytes → Hash) (k : ℕ) (e : Anchored) : StoredProof :=
  storedOf sha256 k e.call.key e.call.leaves e.call.leafIndex

/-- A logged call has the index of one of its leaves, and returned their root. -/
structure Anchored.Valid (sha256 : Bytes → Hash) (e : Anchored) : Prop where
  index_lt : e.call.leafIndex < e.call.leaves.length
  root_eq : e.root = rootOf (Merkle.hashPair sha256) e.call.leaves

theorem Anchored.Valid.ne_nil (hvalid : e.Valid sha256) : e.call.leaves ≠ [] :=
  ne_nil_of_lt hvalid.index_lt

/-- The maps of the store replay its log: the proofs under the keys of the calls, the
    proof assistance under their roots. -/
structure Replays (sha256 : Bytes → Hash) (k : ℕ) (ρ : Run) : Prop where
  level : ρ.store.predeterminedLevel = k
  storage : ρ.store.storage = replay (fun e => e.call.key) (Anchored.stored sha256 k) ρ.log
  assistance : ρ.store.assistanceByRoot =
    replay (fun e => e.root) (fun e => assistanceOf sha256 k e.call.leaves) ρ.log
  valid : ∀ e ∈ ρ.log, e.Valid sha256

/-- A call keeps the maps replaying the log. -/
theorem Replays.anchor (hρ : Replays sha256 k ρ) (call : AnchorCall) :
    Replays sha256 k (ρ.anchor sha256 call) := by
  rw [Run.anchor]
  by_cases hi : call.leafIndex < call.leaves.length
  · rw [anchor_eq _ _ _ hi]
    constructor
    · exact hρ.level
    · rw [replay_concat, ← hρ.storage, ← hρ.level]
      rfl
    · rw [replay_concat, ← hρ.assistance, ← hρ.level]
      rfl
    · intro e he
      rcases List.mem_append.1 he with he | he
      · exact hρ.valid e he
      · rw [List.mem_singleton.1 he]
        exact ⟨hi, rfl⟩
  · -- A failed call changes neither the store nor the log.
    rw [anchor_of_le _ _ _ (Nat.not_lt.1 hi)]
    exact hρ

/-- Along every run, the maps of the store replay its log. -/
theorem replays_run (sha256 : Bytes → Hash) (k : ℕ) (calls : List AnchorCall) :
    Replays sha256 k (run sha256 k calls) := by
  induction calls using List.reverseRecOn with
  | nil => exact ⟨rfl, rfl, rfl, fun e he => absurd he List.not_mem_nil⟩
  | append_singleton calls call ih =>
    rw [run, List.foldl_append]
    exact ih.anchor call

/-- The log of a run has the calls that name a leaf, with the roots over their leaves. -/
theorem log_run (sha256 : Bytes → Hash) (k : ℕ) (calls : List AnchorCall) :
    (run sha256 k calls).log =
      (calls.filter fun call => call.leafIndex < call.leaves.length).map fun call =>
        { call := call, root := rootOf (Merkle.hashPair sha256) call.leaves } := by
  induction calls using List.reverseRecOn with
  | nil => rfl
  | append_singleton calls call ih =>
    have hrun : run sha256 k (calls ++ [call]) = (run sha256 k calls).anchor sha256 call := by
      rw [run, List.foldl_append]
      rfl
    rw [hrun, Run.anchor, List.filter_append, List.map_append, ← ih]
    by_cases hi : call.leafIndex < call.leaves.length
    · rw [anchor_eq _ _ _ hi, List.filter_cons_of_pos (by simpa using hi)]
      rfl
    · rw [anchor_of_le _ _ _ (Nat.not_lt.1 hi), List.filter_cons_of_neg (by simpa using hi)]
      exact (List.append_nil _).symm

/-- A key serves the proof of its last successful call. -/
theorem Replays.query_eq (hρ : Replays sha256 k ρ) (key : IndexKey) :
    ρ.store.query key = Result.okOr ((ρ.lastUnder key).map (Anchored.stored sha256 k))
      .keyNotFound := by
  rw [query, hρ.storage, replay_apply]
  rfl

theorem Replays.query_of_lastUnder (hρ : Replays sha256 k ρ) (he : ρ.lastUnder key = some e) :
    ρ.store.query key = .ok (e.stored sha256 k) := by
  rw [hρ.query_eq, he]
  rfl

theorem Replays.valid_of_lastUnder (hρ : Replays sha256 k ρ) (he : ρ.lastUnder key = some e) :
    e.Valid sha256 := hρ.valid e (mem_of_last he)

/-- A root is served the labels of the last successful call returning it. -/
theorem Replays.publishes (hρ : Replays sha256 k ρ) (he : ρ.lastUnder key = some e) :
    ∃ e', ρ.lastAt e.root = some e' ∧ e'.root = e.root ∧ e'.Valid sha256 ∧
      Publishes sha256 ρ.store k e'.call.leaves := by
  obtain ⟨e', he'⟩ : ∃ e', ρ.lastAt e.root = some e' :=
    exists_last (mem_of_last he)
  have hroot : e'.root = e.root := key_of_last he'
  have hvalid := hρ.valid e' (mem_of_last he')
  have hlast : last (fun e => e.root) ρ.log e.root = some e' := he'
  refine ⟨e', he', hroot, hvalid, hvalid.ne_nil, ?_⟩
  rw [hρ.assistance, ← hvalid.root_eq, replay_apply, hroot, hlast, Option.map_some]

/-! ## Assisted verification -/

/-- The labels of the tree over `published` have, above the leaf `i` of `leaves`, the
    node of the tree over `leaves`. -/
def Serves (sha256 : Bytes → Hash) (k : ℕ) (published leaves : List Hash) (i : ℕ) : Prop :=
  let m := min (labelLevel k published) (height leaves.length)
  i / 2 ^ m < width published.length (labelLevel k published) ∧
    node (Merkle.hashPair sha256) published (labelLevel k published) (i / 2 ^ m) =
      node (Merkle.hashPair sha256) leaves m (i / 2 ^ m)

/-- A tree serves its own leaves. -/
theorem serves_self (sha256 : Bytes → Hash) (k : ℕ) {leaves : List Hash} {i : ℕ}
    (hi : i < leaves.length) : Serves sha256 k leaves leaves i := by
  have hm : min (labelLevel k leaves) (height leaves.length) = labelLevel k leaves :=
    min_eq_left (min_le_right _ _)
  rw [Serves, hm]
  refine ⟨?_, rfl⟩
  have hup := div_lt_width (l := 0) hi (labelLevel k leaves)
  rwa [Nat.zero_add] at hup

/-- Against the labels of the tree over `published`, the proof stored for a leaf is
    accepted exactly when they serve it. -/
theorem Publishes.verify_storedOf_iff {store : ProofStore} {published leaves : List Hash} {i : ℕ}
    (hp : Publishes sha256 store k published) (hi : i < leaves.length)
    (hroot : rootOf (Merkle.hashPair sha256) leaves = rootOf (Merkle.hashPair sha256) published) :
    store.verifyWithAssistance sha256 (leafAt leaves i) (storedOf sha256 k key leaves i) = .ok () ↔
      Serves sha256 k published leaves i := by
  have hindex : (storedOf sha256 k key leaves i).leafIndex = i := rfl
  rw [hp.verify_iff hroot, usedSiblings_storedOf hi labelLevel_le, length_opening, hindex,
    walk_opening_leaf _ hi, Serves]
  exact and_congr_right fun _ => eq_comm

/-- The proof served under a key passes assisted verification of its leaf exactly
    when the labels of the last call with its root serve the leaf. -/
theorem Replays.verify_stored_iff {e' : Anchored} (hρ : Replays sha256 k ρ)
    (he : ρ.lastUnder key = some e) (he' : ρ.lastAt e.root = some e') :
    ρ.store.verifyWithAssistance sha256 (leafAt e.call.leaves e.call.leafIndex)
        (e.stored sha256 k) = .ok () ↔
      Serves sha256 k e'.call.leaves e.call.leaves e.call.leafIndex := by
  obtain ⟨e'', hlast, hroot, hvalid', hp⟩ := hρ.publishes he
  obtain rfl : e' = e'' := Option.some.inj (he'.symm.trans hlast)
  have hvalid := hρ.valid_of_lastUnder he
  refine hp.verify_storedOf_iff hvalid.index_lt ?_
  rw [← hvalid.root_eq, ← hvalid'.root_eq, hroot]

/-- A run in which the calls returning one root are over one leaf vector serves every
    proof of its store. -/
theorem Replays.assisted_of_determined (hρ : Replays sha256 k ρ)
    (hdet : ∀ e ∈ ρ.log, ∀ e' ∈ ρ.log, e.root = e'.root → e.call.leaves = e'.call.leaves)
    (he : ρ.lastUnder key = some e) :
    ρ.store.verifyWithAssistance sha256 (leafAt e.call.leaves e.call.leafIndex)
      (e.stored sha256 k) = .ok () := by
  obtain ⟨e', he', hroot, -, -⟩ := hρ.publishes he
  rw [hρ.verify_stored_iff he he', ← hdet e (mem_of_last he) e' (mem_of_last he') hroot.symm]
  exact serves_self sha256 k (hρ.valid_of_lastUnder he).index_lt

/-- After any run, the proof served under a key passes assisted verification of its
    leaf exactly when the labels last published for its root serve the leaf. -/
theorem assisted_iff (sha256 : Bytes → Hash) (k : ℕ) (calls : List AnchorCall) (key : IndexKey)
    (e : Anchored) (he : (run sha256 k calls).lastUnder key = some e) :
    (∃ x stored, e.call.leaves[e.call.leafIndex]? = some x ∧
      (run sha256 k calls).store.query key = .ok stored ∧
      (run sha256 k calls).store.verifyWithAssistance sha256 x stored = .ok ()) ↔
    ∃ e', (run sha256 k calls).lastAt e.root = some e' ∧
      Serves sha256 k e'.call.leaves e.call.leaves e.call.leafIndex := by
  have hρ := replays_run sha256 k calls
  obtain ⟨e', he', -, -, -⟩ := hρ.publishes he
  rw [getElem?_eq_leafAt (hρ.valid_of_lastUnder he).index_lt, hρ.query_of_lastUnder he, he']
  simp only [Option.some.injEq, Except.ok.injEq, exists_and_left, exists_eq_left']
  exact hρ.verify_stored_iff he he'

/-- A second key. -/
def otherKey : IndexKey := { keyOfThree with position := 1 }

/-- The three leaves, anchored under the second key. -/
def threeCall : AnchorCall where
  key := otherKey
  leaves := threeLeaves
  leafIndex := 0

/-- The three leaves and a copy of the last one, anchored under the first key at the
    copy: the padded tree over the three leaves, so their root. -/
def paddedCall : AnchorCall where
  key := keyOfThree
  leaves := threeLeaves ++ [Vector.replicate 32 3]
  leafIndex := 3

theorem rootOf_padded (sha256 : Bytes → Hash) :
    rootOf (Merkle.hashPair sha256) paddedCall.leaves =
      rootOf (Merkle.hashPair sha256) threeLeaves := rfl

/-- Both calls succeed, with one root. -/
theorem log_padded_three (sha256 : Bytes → Hash) (k : ℕ) :
    (run sha256 k [paddedCall, threeCall]).log =
      [{ call := paddedCall, root := rootOf (Merkle.hashPair sha256) threeLeaves }] ++
        [{ call := threeCall, root := rootOf (Merkle.hashPair sha256) threeLeaves }] := by
  rw [log_run, ← rootOf_padded]
  rfl

theorem assisted_iff_three :
    (∃ x stored, threeLeaves[0]? = some x ∧
      (run Sha256.digest 0 [paddedCall, threeCall]).store.query otherKey = .ok stored ∧
      (run Sha256.digest 0 [paddedCall, threeCall]).store.verifyWithAssistance Sha256.digest x
        stored = .ok ()) ↔
    ∃ e', (run Sha256.digest 0 [paddedCall, threeCall]).lastAt
        (rootOf (Merkle.hashPair Sha256.digest) threeLeaves) = some e' ∧
      Serves Sha256.digest 0 e'.call.leaves threeLeaves 0 :=
  assisted_iff Sha256.digest 0 [paddedCall, threeCall] otherKey
    { call := threeCall, root := rootOf (Merkle.hashPair Sha256.digest) threeLeaves }
    (by rw [Run.lastUnder, log_padded_three, last_concat]; exact if_pos rfl)

/-- The proof of the copy fails assisted verification once the three leaves are
    anchored: the labels of its root are now theirs. -/
theorem assistance_overwritten :
    ¬∀ (k : ℕ) (calls : List AnchorCall) (key : IndexKey) (e : Anchored),
      (run Sha256.digest k calls).lastUnder key = some e →
      ∃ x stored, e.call.leaves[e.call.leafIndex]? = some x ∧
        (run Sha256.digest k calls).store.query key = .ok stored ∧
        (run Sha256.digest k calls).store.verifyWithAssistance Sha256.digest x stored = .ok () := by
  intro hall
  have hρ := replays_run Sha256.digest 0 [paddedCall, threeCall]
  have he : (run Sha256.digest 0 [paddedCall, threeCall]).lastUnder keyOfThree =
      some { call := paddedCall
             root := rootOf (Merkle.hashPair Sha256.digest) threeLeaves } := by
    rw [Run.lastUnder, log_padded_three]
    rfl
  have he' : (run Sha256.digest 0 [paddedCall, threeCall]).lastAt
      (rootOf (Merkle.hashPair Sha256.digest) threeLeaves) =
      some { call := threeCall
             root := rootOf (Merkle.hashPair Sha256.digest) threeLeaves } := by
    rw [Run.lastAt, log_padded_three, last_concat]
    exact if_pos rfl
  obtain ⟨x, stored, hx, hquery, hok⟩ := hall 0 [paddedCall, threeCall] keyOfThree _ he
  rw [hρ.query_of_lastUnder he, Except.ok.injEq] at hquery
  rw [getElem?_eq_leafAt (hρ.valid_of_lastUnder he).index_lt, Option.some.injEq] at hx
  rw [← hx, ← hquery, hρ.verify_stored_iff he he'] at hok
  -- The copy has the index `3`, past the labels of the three leaves.
  have hout : ¬3 / 2 ^ min (labelLevel 0 threeLeaves) (height 4) <
      width 3 (labelLevel 0 threeLeaves) := by
    decide +kernel
  exact hout hok.1

end Vaa.ProofStore
