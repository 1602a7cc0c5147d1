import Mathlib.Data.List.Infix
import Mathlib.Data.Nat.Notation

/-!
# Self-delimiting codes

A code writes values as words, lists of symbols. It is self-delimiting when what follows
a word never changes how it is read: words written one after another are then read
back one by one.

* `SelfDelimiting.append`, `SelfDelimiting.prepend`: so are pairs, and words after a text;
* `selfDelimiting_terminated`: so are words closed by a symbol that none of them has;
* `selfDelimiting_blocks`: so are sequences of words closed by a symbol that none of them
  starts with.
-/

namespace Vaa.Codes

variable {α β γ σ : Type*}

/-- A word tells where it ends. -/
def SelfDelimiting (code : α → List σ) : Prop :=
  ∀ ⦃a b : α⦄ ⦃r s : List σ⦄, code a ++ r = code b ++ s → a = b ∧ r = s

namespace SelfDelimiting

variable {code : α → List σ} {code' : β → List σ}

/-- Words read back from the start of what they are followed by. -/
theorem of_read {read : List σ → Option (α × List σ)}
    (hread : ∀ a r, read (code a ++ r) = some (a, r)) : SelfDelimiting code := by
  intro a b r s heq
  have hsome := hread a r
  rw [heq, hread b s, Option.some.injEq, Prod.mk.injEq] at hsome
  exact ⟨hsome.1.symm, hsome.2.symm⟩

theorem comp (hcode : SelfDelimiting code) {f : γ → α} (hf : Function.Injective f) :
    SelfDelimiting fun c => code (f c) := by
  intro a b r s heq
  exact (hcode heq).imp_left fun h => hf h

/-- Words written after a text. -/
theorem prepend (hcode : SelfDelimiting code) (text : List σ) :
    SelfDelimiting fun a => text ++ code a := by
  intro a b r s heq
  rw [List.append_assoc, List.append_assoc] at heq
  exact hcode (List.append_cancel_left heq)

/-- Pairs of words. -/
theorem append (hcode : SelfDelimiting code) (hcode' : SelfDelimiting code') :
    SelfDelimiting fun p : α × β => code p.1 ++ code' p.2 := by
  rintro ⟨a, b⟩ ⟨a', b'⟩ r s heq
  simp only [List.append_assoc] at heq
  obtain ⟨rfl, hrest⟩ := hcode heq
  obtain ⟨rfl, rfl⟩ := hcode' hrest
  exact ⟨rfl, rfl⟩

end SelfDelimiting

/-- Words without the symbol `t`, closed by it. -/
theorem selfDelimiting_terminated {code : α → List σ} {t : σ} (hcode : Function.Injective code)
    (ht : ∀ a, t ∉ code a) : SelfDelimiting fun a => code a ++ [t] := by
  intro a b r s heq
  simp only [List.append_assoc, List.singleton_append] at heq
  -- The words end at the first `t`.
  rcases List.append_eq_append_iff.1 heq with ⟨w, hw, hrest⟩ | ⟨w, hw, hrest⟩
  · cases w with
    | nil => exact ⟨hcode (by simpa using hw.symm), (List.cons.inj hrest).2⟩
    | cons c w =>
      obtain rfl : t = c := (List.cons.inj hrest).1
      exact absurd (hw ▸ List.mem_append_right _ List.mem_cons_self) (ht b)
  · cases w with
    | nil => exact ⟨hcode (by simpa using hw), (List.cons.inj hrest).2.symm⟩
    | cons c w =>
      obtain rfl : t = c := (List.cons.inj hrest).1
      exact absurd (hw ▸ List.mem_append_right _ List.mem_cons_self) (ht a)

/-- Sequences of words none of which starts with the symbol `t`, closed by it. -/
theorem selfDelimiting_blocks {code : α → List σ} {t : σ} (hcode : SelfDelimiting code)
    (ht : ∀ a, ∃ c w, code a = c :: w ∧ c ≠ t) :
    SelfDelimiting fun as : List α => as.flatMap code ++ [t] := by
  intro as bs r s heq
  induction as generalizing bs with
  | nil =>
    cases bs with
    | nil => exact ⟨rfl, by simpa using heq⟩
    | cons b bs =>
      obtain ⟨c, w, hb, hc⟩ := ht b
      simp only [List.flatMap_nil, List.nil_append, List.flatMap_cons, hb, List.cons_append,
        List.cons.injEq] at heq
      exact absurd heq.1.symm hc
  | cons a as ih =>
    cases bs with
    | nil =>
      obtain ⟨c, w, ha, hc⟩ := ht a
      simp only [List.flatMap_nil, List.nil_append, List.flatMap_cons, ha, List.cons_append,
        List.cons.injEq] at heq
      exact absurd heq.1 hc
    | cons b bs =>
      simp only [List.flatMap_cons, List.append_assoc] at heq
      obtain ⟨rfl, hrest⟩ := hcode heq
      obtain ⟨rfl, rfl⟩ := ih (by simpa using hrest)
      exact ⟨rfl, rfl⟩

end Vaa.Codes
