import Mathlib.Data.List.Induction
import Mathlib.Logic.Function.Basic

/-!
# Keyed logs

A map written one entry at a time, from the empty map, is the *replay* of the
log of its writes: each write has a key and a value, and overrides the earlier
writes under its key. A lookup finds the value of the last write under the key
(`replay_apply`), so two maps replaying one log under different keys are related
through the log.
-/

namespace Vaa.KeyedLog

variable {γ κ ν : Type*} [DecidableEq κ] (key : γ → κ) (val : γ → ν)

/-- The last entry of the log under the key `k`. -/
def last (log : List γ) (k : κ) : Option γ := log.reverse.find? fun c => key c = k

/-- The map written by the log, from the empty map. -/
def replay (log : List γ) : κ → Option ν :=
  log.foldl (fun m c => Function.update m (key c) (some (val c))) fun _ => none

theorem last_concat (log : List γ) (c : γ) (k : κ) :
    last key (log ++ [c]) k = if key c = k then some c else last key log k := by
  rw [last, List.reverse_append, List.reverse_singleton, List.singleton_append, List.find?_cons]
  by_cases hk : key c = k <;> simp [hk, last]

theorem replay_concat (log : List γ) (c : γ) :
    replay key val (log ++ [c]) = Function.update (replay key val log) (key c) (some (val c)) := by
  rw [replay, List.foldl_append]
  rfl

/-- A lookup finds the value of the last write under the key. -/
theorem replay_apply (log : List γ) (k : κ) :
    replay key val log k = (last key log k).map val := by
  induction log using List.reverseRecOn with
  | nil => rfl
  | append_singleton log c ih =>
    rw [replay_concat, last_concat]
    by_cases hk : key c = k
    · subst hk
      simp
    · rw [Function.update_of_ne (Ne.symm hk), ih, if_neg hk]

variable {key} {log : List γ} {k : κ} {c : γ}

theorem key_of_last (hc : last key log k = some c) : key c = k := by
  simpa using List.find?_some hc

theorem mem_of_last (hc : last key log k = some c) : c ∈ log :=
  List.mem_reverse.1 (List.mem_of_find?_eq_some hc)

/-- A key written once has a last write. -/
theorem exists_last (hc : c ∈ log) : ∃ c', last key log (key c) = some c' := by
  rw [← Option.isSome_iff_exists, last, List.find?_isSome]
  exact ⟨c, List.mem_reverse.2 hc, by simp⟩

variable (key) in
/-- The only write under its key is the last one. -/
theorem last_of_unique (hc : c ∈ log) (hunique : ∀ c' ∈ log, key c' = key c → c' = c) :
    last key log (key c) = some c := by
  obtain ⟨c', hc'⟩ : ∃ c', last key log (key c) = some c' := exists_last hc
  rw [hc', hunique c' (mem_of_last hc') (key_of_last hc')]

/-! ## Parts of a log -/

/-- The last write under a key is found in any part of the log with all its writes. -/
theorem last_filter {p : γ → Bool} (hp : ∀ c ∈ log, key c = k → p c = true) :
    last key (log.filter p) k = last key log k := by
  induction log using List.reverseRecOn with
  | nil => rfl
  | append_singleton log c ih =>
    have ih := ih fun c' hc' => hp c' (List.mem_append_left _ hc')
    rw [List.filter_append, last_concat]
    by_cases hk : key c = k
    · have hc := hp c (List.mem_append_right _ (List.mem_singleton_self c)) hk
      rw [List.filter_cons_of_pos hc, List.filter_nil, last_concat, ih]
    · rw [if_neg hk, ← ih]
      cases hc : p c with
      | false => rw [List.filter_cons_of_neg (by simp [hc]), List.filter_nil, List.append_nil]
      | true => rw [List.filter_cons_of_pos hc, List.filter_nil, last_concat, if_neg hk]

theorem last_map {β : Type*} (f : β → γ) (log : List β) (k : κ) :
    last key (log.map f) k = (last (fun b => key (f b)) log k).map f := by
  rw [last, last, ← List.map_reverse, List.find?_map]
  rfl

end Vaa.KeyedLog
