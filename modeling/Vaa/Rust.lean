import Mathlib.Algebra.Group.Nat.Defs
import Mathlib.Data.List.Forall2
import Mathlib.Data.Nat.Notation

/-!
# Rust calls

A call that returns a `Result` ends with a value, with an `Err`, or with a
panic, which unwinds past every `?`. An index out of range is a panic, and so is
arithmetic out of the range of its words, unless the build lets it wrap around.

The errors of a binary are `anyhow` errors: chains of texts, the outermost context
first and the cause last.
-/

namespace Vaa

variable {ε ε' α β : Type}

/-- How a call ends without a value. -/
inductive Fault (ε : Type)
  /-- The call returns `Err(e)`. -/
  | err (e : ε)
  /-- The call panics. -/
  | panicked
  deriving DecidableEq, Repr

/-- A panic is not an error to convert. -/
def Fault.map (f : ε → ε') : Fault ε → Fault ε'
  | err e => err (f e)
  | panicked => panicked

/-- The outcome of a call returning `Result<α, ε>`. -/
abbrev Result (ε α : Type) := Except (Fault ε) α

instance decidableEqExcept [DecidableEq ε] [DecidableEq α] : DecidableEq (Except ε α)
  | .ok a, .ok b => decidable_of_iff (a = b) (Except.ok.injEq a b).to_iff.symm
  | .error e, .error e' => decidable_of_iff (e = e') (Except.error.injEq e e').to_iff.symm
  | .ok _, .error _ => isFalse nofun
  | .error _, .ok _ => isFalse nofun

namespace Result

/-- `xs[i]`. -/
def index (xs : List α) (i : ℕ) : Result ε α :=
  match xs[i]? with
  | some x => .ok x
  | none => .error .panicked

/-- `opt.ok_or(e)`. -/
def okOr (opt : Option α) (e : ε) : Result ε α :=
  match opt with
  | some x => .ok x
  | none => .error (.err e)

/-- The conversion a `?` applies to an error. -/
def mapErr (f : ε → ε') : Result ε α → Result ε' α
  | .ok x => .ok x
  | .error e => .error (e.map f)

@[simp] theorem mapErr_eq_ok_iff {f : ε → ε'} {x : Result ε α} {a : α} :
    mapErr f x = .ok a ↔ x = .ok a := by
  cases x <;> simp [mapErr]

theorem ok_bind (a : α) (f : α → Result ε β) : (.ok a : Result ε α) >>= f = f a := rfl

/-- A call followed by a `?` succeeds when both parts do. -/
theorem bind_eq_ok_iff {x : Result ε α} {f : α → Result ε β} {b : β} :
    x >>= f = .ok b ↔ ∃ a, x = .ok a ∧ f a = .ok b := by
  cases x <;> simp [Bind.bind, Except.bind]

/-- A loop of calls, each followed by a `?`, succeeds when all of them do. -/
theorem mapM_eq_ok_iff {f : α → Result ε β} {xs : List α} {ys : List β} :
    xs.mapM f = .ok ys ↔ List.Forall₂ (fun x y => f x = .ok y) xs ys := by
  induction xs generalizing ys with
  | nil =>
    have hpure : (pure [] : Result ε (List β)) = .ok [] := rfl
    rw [List.mapM_nil, List.forall₂_nil_left_iff, hpure, Except.ok.injEq, eq_comm]
  | cons x xs ih =>
    rw [List.mapM_cons, bind_eq_ok_iff, List.forall₂_cons_left_iff]
    simp only [bind_eq_ok_iff, ih]
    constructor
    · rintro ⟨y, hy, ys, hys, hcons⟩
      exact ⟨y, ys, hy, hys, (Except.ok.inj hcons).symm⟩
    · rintro ⟨y, ys, hy, hys, rfl⟩
      exact ⟨y, hy, ys, hys, rfl⟩

/-- A relation to the entries of an enumerated list that does not read the indices. -/
theorem forall₂_zipIdx_iff {R : α → β → Prop} {xs : List α} {k : ℕ} {ys : List β} :
    List.Forall₂ (fun p y => R p.1 y) (xs.zipIdx k) ys ↔ List.Forall₂ R xs ys := by
  rw [← List.forall₂_map_left_iff, List.zipIdx_map_fst]

/-- `result.is_err()`. -/
def isErr (x : Result ε α) : Result ε' Bool :=
  match x with
  | .ok _ => .ok false
  | .error (.err _) => .ok true
  | .error .panicked => .error .panicked

/-- A loop of calls, each passing its value on to the next. -/
theorem foldlM_cons_eq_ok_iff {f : β → α → Result ε β} {x : α} {xs : List α} {b b' : β} :
    (x :: xs).foldlM f b = .ok b' ↔ ∃ c, f b x = .ok c ∧ xs.foldlM f c = .ok b' := by
  rw [List.foldlM_cons, bind_eq_ok_iff]

/-- Loops whose turns succeed alike succeed alike, whatever their errors. -/
theorem foldlM_eq_ok_congr {f g : β → α → Result ε β} {xs : List α} {b b' : β}
    (hturn : ∀ c x c', f c x = .ok c' ↔ g c x = .ok c') :
    xs.foldlM f b = .ok b' ↔ xs.foldlM g b = .ok b' := by
  induction xs generalizing b with
  | nil => rfl
  | cons x xs ih => simp only [foldlM_cons_eq_ok_iff, hturn, ih]

/-- A loop that counts its turns. -/
theorem foldlM_count {f : ℕ → α → Result ε ℕ} {xs : List α}
    (hturn : ∀ x ∈ xs, ∀ n, f n x = .ok (n + 1)) (n : ℕ) :
    xs.foldlM f n = .ok (n + xs.length) := by
  induction xs generalizing n with
  | nil => rfl
  | cons x xs ih =>
    refine foldlM_cons_eq_ok_iff.2 ⟨n + 1, hturn x List.mem_cons_self n, ?_⟩
    rw [ih (fun y hy => hturn y (List.mem_cons_of_mem x hy)), List.length_cons, Nat.add_assoc,
      Nat.add_comm 1]

theorem index_of_getElem? {xs : List α} {i : ℕ} {x : α} (hx : xs[i]? = some x) :
    (index xs i : Result ε α) = .ok x := by
  rw [index, hx]

end Result

/-! ## Errors of a binary -/

/-- `anyhow::Error`: the texts of its chain, from the outermost context to the cause. -/
structure AnyhowError where
  chain : List String
  deriving DecidableEq, Repr

/-- `bail!`. -/
def bail (text : String) : Result AnyhowError α := .error (.err { chain := [text] })

/-- A call of another library, failing with an error of one text. -/
def Result.foreign (x : Except String α) : Result AnyhowError α :=
  match x with
  | .ok a => .ok a
  | .error text => bail text

/-- `result.context(text)`. -/
def Result.context (text : String) (x : Result AnyhowError α) : Result AnyhowError α :=
  x.mapErr fun e => { chain := text :: e.chain }

/-- `opt.context(text)`. -/
def Result.ofOption (text : String) (opt : Option α) : Result AnyhowError α :=
  Result.okOr opt { chain := [text] }

@[simp] theorem Result.foreign_eq_ok_iff {x : Except String α} {a : α} :
    Result.foreign x = .ok a ↔ x = .ok a := by
  cases x <;> simp [Result.foreign, bail]

@[simp] theorem Result.context_eq_ok_iff {text : String} {x : Result AnyhowError α} {a : α} :
    Result.context text x = .ok a ↔ x = .ok a := Result.mapErr_eq_ok_iff

@[simp] theorem Result.ofOption_eq_ok_iff {text : String} {opt : Option α} {a : α} :
    Result.ofOption text opt = .ok a ↔ opt = some a := by
  cases opt <;> simp [Result.ofOption, Result.okOr]

/-! ## Machine words -/

/-- `x op y` on machine words: out of range, it panics if the build checks overflows. -/
def machine (overflowChecks : Bool) (inRange : Prop) [Decidable inRange]
    (wrapped : α) : Result AnyhowError α :=
  if overflowChecks = true → inRange then .ok wrapped else .error .panicked

theorem machine_eq_ok_iff {overflowChecks : Bool} {inRange : Prop} [Decidable inRange]
    {wrapped a : α} : machine overflowChecks inRange wrapped = .ok a ↔
      (overflowChecks = true → inRange) ∧ wrapped = a := by
  rw [machine]
  split
  · next hin =>
    rw [Except.ok.injEq]
    exact (and_iff_right hin).symm
  · next hout => simp [hout]

/-- A word computed from another one is in range when both are. -/
theorem machine_bind {overflowChecks : Bool} {inRange inRange' : Prop} [Decidable inRange]
    [Decidable inRange'] {a : α} {b : β} {f : α → Result AnyhowError β}
    (hrange : inRange' → inRange)
    (hf : (overflowChecks = true → inRange) → f a = machine overflowChecks inRange' b) :
    machine overflowChecks inRange a >>= f = machine overflowChecks inRange' b := by
  rw [machine]
  split
  · next hin => exact hf hin
  · next hout =>
    have hout' : ¬(overflowChecks = true → inRange') := by
      intro hin
      exact hout fun hchecks => hrange (hin hchecks)
    rw [machine, if_neg hout']
    rfl

/-! ## Strings -/

/-- `char::is_whitespace`: the Unicode property `White_Space`. -/
def isWhitespace (c : Char) : Bool :=
  (9 ≤ c.toNat && c.toNat ≤ 13) || c.toNat = 0x20 || c.toNat = 0x85 || c.toNat = 0xa0 ||
    c.toNat = 0x1680 || (0x2000 ≤ c.toNat && c.toNat ≤ 0x200a) || c.toNat = 0x2028 ||
    c.toNat = 0x2029 || c.toNat = 0x202f || c.toNat = 0x205f || c.toNat = 0x3000

/-- `str::trim`. -/
def trim (s : String) : String :=
  String.ofList (((s.toList.dropWhile isWhitespace).reverse.dropWhile isWhitespace).reverse)

/-- A string without whitespace is not trimmed. -/
theorem trim_eq_self {s : String} (hs : ∀ c ∈ s.toList, isWhitespace c = false) : trim s = s := by
  have hdrop (cs : List Char) (hcs : ∀ c ∈ cs, isWhitespace c = false) :
      cs.dropWhile isWhitespace = cs := by
    cases cs with
    | nil => rfl
    | cons c cs => rw [List.dropWhile_cons_of_neg (by simp [hcs c List.mem_cons_self])]
  have hrev (c : Char) (hc : c ∈ s.toList.reverse) : isWhitespace c = false :=
    hs c (List.mem_reverse.1 hc)
  rw [trim, hdrop _ hs, hdrop _ hrev, List.reverse_reverse, String.ofList_toList]

end Vaa
