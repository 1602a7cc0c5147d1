import Vaa.Rust

/-!
# How calls fail

A call fails with a fault, an `Err` or a panic. The rules tell when a call made of others
fails, and with which fault: a sequence fails with the first of its calls that does, and a
loop with the first of its turns, the ones before having ended with a value. They are
equivalences, so that rewriting with them turns a failure of a function into the
conditions of its branches, panics included.

A call that does not panic `Returns`; so does a sequence and a loop of such calls.
-/

namespace Vaa.Result

variable {ε ε' α β γ : Type} {fault : Fault ε}

theorem ok_ne_error {a : α} : (.ok a : Result ε α) ≠ .error fault := nofun

theorem error_ne_ok {a : α} : (.error fault : Result ε α) ≠ .ok a := nofun

/-- A call followed by a `?`. -/
theorem bind_eq_error_iff {x : Result ε α} {f : α → Result ε β} :
    x >>= f = .error fault ↔ x = .error fault ∨ ∃ a, x = .ok a ∧ f a = .error fault := by
  cases x <;> simp [Bind.bind, Except.bind]

theorem unit_bind_eq_error_iff {x : Result ε Unit} {f : Unit → Result ε β} :
    x >>= f = .error fault ↔ x = .error fault ∨ x = .ok () ∧ f () = .error fault :=
  bind_eq_error_iff.trans (or_congr_right ⟨fun ⟨_, h⟩ => h, fun h => ⟨(), h⟩⟩)

theorem mapErr_eq_error_iff {f : ε → ε'} {x : Result ε α} {fault' : Fault ε'} :
    mapErr f x = .error fault' ↔ ∃ fault, x = .error fault ∧ fault.map f = fault' := by
  cases x <;> simp [mapErr]

/-! ## Loops -/

/-- A loop of calls fails at its first turn that does. -/
theorem mapM_eq_error_iff {f : α → Result ε β} {xs : List α} : xs.mapM f = .error fault ↔
    ∃ done x rest, xs = done ++ x :: rest ∧ (∀ y ∈ done, ∃ b, f y = .ok b) ∧
      f x = .error fault := by
  induction xs with
  | nil => simp [pure, Except.pure]
  | cons x xs ih =>
    simp only [List.mapM_cons, bind_eq_error_iff, ih]
    constructor
    · intro h
      rcases h with hx | ⟨b, hb, ⟨done, y, rest, rfl, hdone, hy⟩ | ⟨_, -, hpure⟩⟩
      · exact ⟨[], x, xs, rfl, nofun, hx⟩
      · exact ⟨x :: done, y, rest, rfl, List.forall_mem_cons.2 ⟨⟨b, hb⟩, hdone⟩, hy⟩
      · cases hpure
    · rintro ⟨done, y, rest, heq, hdone, hy⟩
      cases done with
      | nil =>
        obtain ⟨rfl, rfl⟩ := List.cons.inj heq
        exact .inl hy
      | cons z done =>
        obtain ⟨rfl, rfl⟩ := List.cons.inj heq
        obtain ⟨⟨b, hb⟩, hdone⟩ := List.forall_mem_cons.1 hdone
        exact .inr ⟨b, hb, .inl ⟨done, y, rest, rfl, hdone, hy⟩⟩

/-- It ends with values when all of its turns do. -/
theorem exists_mapM_eq_ok_iff {f : α → Result ε β} {xs : List α} :
    (∃ ys, xs.mapM f = .ok ys) ↔ ∀ x ∈ xs, ∃ y, f x = .ok y := by
  simp only [mapM_eq_ok_iff]
  induction xs with
  | nil => exact iff_of_true ⟨[], .nil⟩ nofun
  | cons x xs ih =>
    rw [List.forall_mem_cons, ← ih]
    constructor
    · rintro ⟨_, hy | ⟨hy, hys⟩⟩
      exact ⟨⟨_, hy⟩, _, hys⟩
    · rintro ⟨⟨y, hy⟩, ys, hys⟩
      exact ⟨_, .cons hy hys⟩

/-- A loop that passes a value on fails as the list of its turns does, when these fail
    alike whatever the value. -/
theorem foldlM_eq_error_iff_mapM {f : β → α → Result ε β} {g : α → Result ε γ} {xs : List α}
    {b : β} (hturn : ∀ c x fault, f c x = .error fault ↔ g x = .error fault) :
    xs.foldlM f b = .error fault ↔ xs.mapM g = .error fault := by
  induction xs generalizing b with
  | nil => exact iff_of_false ok_ne_error ok_ne_error
  | cons x xs ih =>
    rw [List.foldlM_cons, List.mapM_cons, bind_eq_error_iff, bind_eq_error_iff]
    refine or_congr (hturn b x fault) ?_
    -- The first turn fails in both loops, or in none, and then the value it gives is not read.
    cases hg : g x with
    | error fault' =>
      rw [(hturn b x fault').2 hg]
      exact iff_of_false nofun nofun
    | ok y =>
      cases hf : f b x with
      | error fault' => exact absurd ((hturn b x fault').1 hf) (hg ▸ nofun)
      | ok c =>
        simp only [Except.ok.injEq, exists_eq_left', ih, bind_eq_error_iff]
        exact ⟨.inl, fun h => h.resolve_right nofun⟩

/-- The entries before one of an enumerated list, and the entry itself. -/
theorem zipIdx_eq_append_cons {xs : List α} {k : ℕ} {done rest : List (α × ℕ)} {p : α × ℕ}
    (heq : xs.zipIdx k = done ++ p :: rest) : p.2 = k + done.length ∧
      xs[done.length]? = some p.1 ∧ ∀ j < done.length, ∃ x, xs[j]? = some x ∧
        (x, k + j) ∈ done := by
  have hget (j : ℕ) : (xs.zipIdx k)[j]? = xs[j]?.map fun x => (x, k + j) := by
    rw [List.getElem?_zipIdx]
  have hp := hget done.length
  rw [heq, List.getElem?_append_right (Nat.le_refl _), Nat.sub_self, List.getElem?_cons_zero,
    eq_comm, Option.map_eq_some_iff] at hp
  obtain ⟨x, hx, rfl⟩ := hp
  refine ⟨rfl, hx, fun j hj => ?_⟩
  have hj' := hget j
  rw [heq, List.getElem?_append_left hj, List.getElem?_eq_getElem hj, eq_comm,
    Option.map_eq_some_iff] at hj'
  obtain ⟨y, hy, hmem⟩ := hj'
  exact ⟨y, hy, hmem ▸ List.getElem_mem hj⟩

/-- So does a loop over enumerated entries. -/
theorem mapM_zipIdx_eq_error_iff {f : α × ℕ → Result ε β} {xs : List α} :
    xs.zipIdx.mapM f = .error fault ↔
      ∃ i x, xs[i]? = some x ∧ (∀ j < i, ∃ y b, xs[j]? = some y ∧ f (y, j) = .ok b) ∧
        f (x, i) = .error fault := by
  rw [mapM_eq_error_iff]
  constructor
  · rintro ⟨done, ⟨x, i⟩, rest, heq, hdone, hx⟩
    obtain ⟨hi, hget, hbefore⟩ := zipIdx_eq_append_cons heq
    rw [Nat.zero_add] at hi
    obtain rfl := hi
    refine ⟨_, x, hget, fun j hj => ?_, hx⟩
    obtain ⟨y, hy, hmem⟩ := hbefore j hj
    rw [Nat.zero_add] at hmem
    obtain ⟨b, hb⟩ := hdone _ hmem
    exact ⟨y, b, hy, hb⟩
  · rintro ⟨i, x, hget, hbefore, hx⟩
    obtain ⟨hi, rfl⟩ := List.getElem?_eq_some_iff.1 hget
    have hlt : i < xs.zipIdx.length := by rwa [List.length_zipIdx]
    refine ⟨xs.zipIdx.take i, (xs[i], i), xs.zipIdx.drop (i + 1), ?_, fun p hp => ?_, hx⟩
    · have hsplit := List.take_append_drop i xs.zipIdx
      rw [List.drop_eq_getElem_cons hlt, List.getElem_zipIdx, Nat.zero_add] at hsplit
      exact hsplit.symm
    · obtain ⟨j, hj, rfl⟩ := List.mem_take_iff_getElem.1 hp
      obtain ⟨y, b, hy, hb⟩ := hbefore j (by omega)
      obtain ⟨hlt', rfl⟩ := List.getElem?_eq_some_iff.1 hy
      rw [List.getElem_zipIdx, Nat.zero_add]
      exact ⟨b, hb⟩

/-! ## Calls that return -/

/-- The call returns, with a value or with an `Err`. -/
def Returns (x : Result ε α) : Prop := x ≠ .error .panicked

theorem returns_ok (a : α) : Returns (.ok a : Result ε α) := ok_ne_error

theorem Returns.bind {x : Result ε α} {f : α → Result ε β} (hx : x.Returns)
    (hf : ∀ a, x = .ok a → (f a).Returns) : (x >>= f).Returns := by
  intro hpanic
  rcases bind_eq_error_iff.1 hpanic with h | ⟨a, ha, h⟩
  · exact hx h
  · exact hf a ha h

/-- After a call that returns, a sequence panics as the rest of it does. -/
theorem Returns.bind_panics_iff {x : Result ε α} {f : α → Result ε β} (hx : x.Returns) :
    x >>= f = .error .panicked ↔ ∃ a, x = .ok a ∧ f a = .error .panicked :=
  bind_eq_error_iff.trans (or_iff_right hx)

/-- Before calls that return, it panics as the first of its calls does. -/
theorem bind_panics_iff_of_returns {x : Result ε α} {f : α → Result ε β}
    (hf : ∀ a, x = .ok a → (f a).Returns) :
    x >>= f = .error .panicked ↔ x = .error .panicked :=
  bind_eq_error_iff.trans (or_iff_left fun ⟨a, ha, h⟩ => hf a ha h)

theorem Returns.mapErr {f : ε → ε'} {x : Result ε α} (hx : x.Returns) :
    (mapErr f x).Returns := by
  intro hpanic
  obtain ⟨_ | _, hfault, hmap⟩ := mapErr_eq_error_iff.1 hpanic
  · cases hmap
  · exact hx hfault

/-- A loop of calls that return. -/
theorem Returns.mapM {f : α → Result ε β} {xs : List α} (hturn : ∀ x ∈ xs, (f x).Returns) :
    (xs.mapM f).Returns := by
  intro hpanic
  obtain ⟨done, x, rest, rfl, -, hx⟩ := mapM_eq_error_iff.1 hpanic
  exact hturn x (List.mem_append_right _ List.mem_cons_self) hx

theorem Returns.ite {P : Prop} [Decidable P] {x y : Result ε α} (hx : P → x.Returns)
    (hy : ¬P → y.Returns) : (if P then x else y).Returns := by
  split
  · next hp => exact hx hp
  · next hp => exact hy hp

/-! ## Errors of a binary -/

section Anyhow

variable {fault : Fault AnyhowError}

theorem bail_eq_error_iff {text : String} :
    (bail text : Result AnyhowError α) = .error fault ↔ fault = .err { chain := [text] } := by
  rw [bail, Except.error.injEq, eq_comm]

theorem foreign_eq_error_iff {x : Except String α} : foreign x = .error fault ↔
    ∃ text, x = .error text ∧ fault = .err { chain := [text] } := by
  cases x <;> simp [foreign, bail, eq_comm]

/-- A call of another library with a context. -/
theorem context_foreign_eq_error_iff {x : Except String α} {text : String} :
    context text (foreign x) = .error fault ↔
      ∃ cause, x = .error cause ∧ fault = .err { chain := [text, cause] } := by
  cases x with
  | ok a =>
    refine iff_of_false ok_ne_error ?_
    rintro ⟨_, ⟨⟩, -⟩
  | error cause =>
    constructor
    · intro h
      exact ⟨cause, rfl, (Except.error.inj h).symm⟩
    · rintro ⟨_, ⟨⟩, rfl⟩
      rfl

/-- A context is put in front of the error of a call. -/
theorem context_eq_error_iff {text : String} {x : Result AnyhowError α} :
    context text x = .error fault ↔
      ∃ fault', x = .error fault' ∧ fault'.map (fun e => ⟨text :: e.chain⟩) = fault :=
  mapErr_eq_error_iff

theorem machine_eq_error_iff {overflowChecks : Bool} {inRange : Prop} [Decidable inRange]
    {wrapped : α} : machine overflowChecks inRange wrapped = .error fault ↔
      (overflowChecks = true ∧ ¬inRange) ∧ fault = .panicked := by
  rw [machine]
  split
  · next hin =>
    refine iff_of_false ok_ne_error ?_
    rintro ⟨⟨hchecks, hout⟩, -⟩
    exact hout (hin hchecks)
  · next hout => simp [Classical.not_imp.1 hout, eq_comm]

theorem returns_bail (text : String) : (bail text : Result AnyhowError α).Returns := nofun

theorem returns_ofOption (text : String) (opt : Option α) : (ofOption text opt).Returns := by
  cases opt <;> exact nofun

theorem Returns.context {text : String} {x : Result AnyhowError α} (hx : x.Returns) :
    (x.context text).Returns := hx.mapErr

end Anyhow

end Vaa.Result
