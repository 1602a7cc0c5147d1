import Mathlib.Data.Set.Function

/-!
# Footprints

Actions on a memory of cells, each with the cells it reads and those it may write
(`Actions`): it changes no other cell, and what it shows and leaves in a cell does not
depend on the cells it does not read.

Several agents run actions on one memory, in some order. An agent of which the others
write no cell it reads is shown what it would be shown alone, and the cells the others do
not write are left as it would leave them alone (`shown_filter`, `final_filter`). If no
agent writes a cell that another one reads or writes, the order in which the agents go
does not matter (`shown_eq_of_raceFree`, `final_eq_of_raceFree`).
-/

namespace Vaa.Footprint

/-- Actions `α` on a memory of cells `φ` with contents `ν`, showing results `β`. -/
structure Actions (φ ν α β : Type*) where
  shows : α → (φ → ν) → β
  next : α → (φ → ν) → φ → ν
  reads : α → Set φ
  writes : α → Set φ
  next_of_notMem : ∀ a m x, x ∉ writes a → next a m x = m x
  shows_congr : ∀ a m m', Set.EqOn m m' (reads a) → shows a m = shows a m'
  next_congr : ∀ a m m' x, Set.EqOn m m' (reads a) → m x = m' x → next a m x = next a m' x

namespace Actions

variable {φ ν α β ι : Type*} (A : Actions φ ν α β)

/-- The memory after some actions. -/
def final : List α → (φ → ν) → φ → ν
  | [], m => m
  | a :: as, m => final as (A.next a m)

@[simp] theorem final_nil (m : φ → ν) : A.final [] m = m := rfl

@[simp] theorem final_cons (a : α) (as : List α) (m : φ → ν) :
    A.final (a :: as) m = A.final as (A.next a m) := rfl

theorem final_append (as bs : List α) (m : φ → ν) :
    A.final (as ++ bs) m = A.final bs (A.final as m) := by
  induction as generalizing m with
  | nil => rfl
  | cons a as ih => exact ih (A.next a m)

/-- A cell that no action writes is left as it is. -/
theorem final_frame {as : List α} {x : φ} (hx : ∀ a ∈ as, x ∉ A.writes a) (m : φ → ν) :
    A.final as m x = m x := by
  induction as generalizing m with
  | nil => rfl
  | cons a as ih =>
    rw [List.forall_mem_cons] at hx
    rw [final_cons, ih hx.2, A.next_of_notMem a m x hx.1]

/-! ## Agents -/

/-- What the actions of the agents show, in order. -/
def shown : List (ι × α) → (φ → ν) → List (ι × β)
  | [], _ => []
  | c :: steps, m => (c.1, A.shows c.2 m) :: shown steps (A.next c.2 m)

/-- The actions of the other agents write no cell that one of the agent `i` reads. -/
def Undisturbed (steps : List (ι × α)) (i : ι) : Prop :=
  ∀ c ∈ steps, c.1 ≠ i → ∀ d ∈ steps, d.1 = i → ∀ x ∈ A.writes c.2, x ∉ A.reads d.2

/-- The memories have the same contents in the cells the agent `i` reads. -/
def Agree (steps : List (ι × α)) (i : ι) (m m' : φ → ν) : Prop :=
  ∀ d ∈ steps, d.1 = i → Set.EqOn m m' (A.reads d.2)

variable {A} {steps : List (ι × α)} {c : ι × α} {i : ι} {m m' : φ → ν} {x : φ}

theorem agree_refl (steps : List (ι × α)) (i : ι) (m : φ → ν) : A.Agree steps i m m :=
  fun _ _ _ _ _ => rfl

theorem Undisturbed.tail (h : A.Undisturbed (c :: steps) i) : A.Undisturbed steps i :=
  fun c' hc' hne d hd hi =>
    h c' (List.mem_cons_of_mem _ hc') hne d (List.mem_cons_of_mem _ hd) hi

/-- An action of the agent leaves memories that agree in agreement. -/
theorem Agree.own (hm : A.Agree (c :: steps) i m m') (hi : c.1 = i) :
    A.Agree steps i (A.next c.2 m) (A.next c.2 m') := by
  obtain ⟨hc, hsteps⟩ := List.forall_mem_cons.1 hm
  intro d hd hdi x hx
  exact A.next_congr c.2 m m' x (hc hi) (hsteps d hd hdi hx)

/-- An action of another agent changes nothing that the agent reads later. -/
theorem Agree.other (hm : A.Agree (c :: steps) i m m') (h : A.Undisturbed (c :: steps) i)
    (hne : c.1 ≠ i) : A.Agree steps i (A.next c.2 m) m' := by
  intro d hd hdi x hx
  have hmem := List.mem_cons_of_mem c hd
  have hx' : x ∉ A.writes c.2 := fun hwrites =>
    h c List.mem_cons_self hne d hmem hdi x hwrites hx
  rw [A.next_of_notMem c.2 m x hx']
  exact hm d hmem hdi hx

variable [DecidableEq ι]

/-- An undisturbed agent is shown what it is shown alone, on any memory with the same
    contents in the cells it reads. -/
theorem shown_filter (h : A.Undisturbed steps i) (hm : A.Agree steps i m m') :
    (A.shown steps m).filter (fun c => c.1 = i) = A.shown (steps.filter fun c => c.1 = i) m' := by
  induction steps generalizing m m' with
  | nil => rfl
  | cons c steps ih =>
    by_cases hi : c.1 = i
    · have hshows := A.shows_congr c.2 m m' (hm c List.mem_cons_self hi)
      rw [shown, List.filter_cons_of_pos (by simpa using hi),
        List.filter_cons_of_pos (by simpa using hi), shown, hshows, ih h.tail (hm.own hi)]
    · -- The agent sees nothing of what another one has done.
      rw [shown, List.filter_cons_of_neg (by simpa using hi),
        List.filter_cons_of_neg (by simpa using hi), ih h.tail (hm.other h hi)]

/-- A cell that no other agent writes is left as the agent leaves it alone. -/
theorem final_filter (h : A.Undisturbed steps i) (hm : A.Agree steps i m m') (hx : m x = m' x)
    (hwrites : ∀ c ∈ steps, c.1 ≠ i → x ∉ A.writes c.2) :
    A.final (steps.map Prod.snd) m x =
      A.final ((steps.filter fun c => c.1 = i).map Prod.snd) m' x := by
  induction steps generalizing m m' with
  | nil => exact hx
  | cons c steps ih =>
    obtain ⟨hc, hwrites⟩ := List.forall_mem_cons.1 hwrites
    by_cases hi : c.1 = i
    · have hnext := A.next_congr c.2 m m' x (hm c List.mem_cons_self hi) hx
      rw [List.filter_cons_of_pos (by simpa using hi), List.map_cons, List.map_cons, final_cons,
        final_cons, ih h.tail (hm.own hi) hnext hwrites]
    · have hnext := (A.next_of_notMem c.2 m x (hc hi)).trans hx
      rw [List.filter_cons_of_neg (by simpa using hi), List.map_cons, final_cons,
        ih h.tail (hm.other h hi) hnext hwrites]

/-! ## Races -/

variable (A) in
/-- No agent writes a cell that another one reads or writes. -/
def RaceFree (steps : List (ι × α)) : Prop :=
  ∀ c ∈ steps, ∀ d ∈ steps, c.1 ≠ d.1 →
    ∀ x ∈ A.writes c.2, x ∉ A.reads d.2 ∧ x ∉ A.writes d.2

omit [DecidableEq ι] in
theorem RaceFree.undisturbed (h : A.RaceFree steps) (i : ι) : A.Undisturbed steps i := by
  rintro c hc hne d hd rfl x hx
  exact (h c hc d hd hne x hx).1

omit [DecidableEq ι] in
/-- A cell written by an agent is written by no other one. -/
theorem RaceFree.notMem_writes (h : A.RaceFree steps) (hc : c ∈ steps) (hx : x ∈ A.writes c.2)
    {d : ι × α} (hd : d ∈ steps) (hne : d.1 ≠ c.1) : x ∉ A.writes d.2 := fun hx' =>
  (h d hd c hc hne x hx').2 hx

/-- Two orders of the same actions of every agent. -/
def SameParts (steps steps' : List (ι × α)) : Prop :=
  ∀ i, (steps.filter fun c => c.1 = i) = steps'.filter fun c => c.1 = i

variable {steps' : List (ι × α)}

theorem SameParts.mem_iff (h : SameParts steps steps') : c ∈ steps ↔ c ∈ steps' := by
  have hmem : c ∈ steps.filter (fun d => d.1 = c.1) ↔ c ∈ steps'.filter fun d => d.1 = c.1 := by
    rw [h c.1]
  simpa using hmem

theorem RaceFree.of_sameParts (h : A.RaceFree steps) (hparts : SameParts steps steps') :
    A.RaceFree steps' := fun c hc d hd =>
  h c (hparts.mem_iff.2 hc) d (hparts.mem_iff.2 hd)

/-- Without races, the order of the actions of different agents changes nothing shown to any
    of them. -/
theorem shown_eq_of_raceFree (h : A.RaceFree steps) (hparts : SameParts steps steps')
    (m : φ → ν) (i : ι) : (A.shown steps m).filter (fun c => c.1 = i) =
      (A.shown steps' m).filter fun c => c.1 = i := by
  rw [shown_filter (h.undisturbed i) (agree_refl steps i m), hparts i,
    shown_filter ((h.of_sameParts hparts).undisturbed i) (agree_refl steps' i m)]

/-- Nor does it change the memory they leave. -/
theorem final_eq_of_raceFree (h : A.RaceFree steps) (hparts : SameParts steps steps')
    (m : φ → ν) : A.final (steps.map Prod.snd) m = A.final (steps'.map Prod.snd) m := by
  funext x
  by_cases hx : ∃ c ∈ steps, x ∈ A.writes c.2
  · -- One agent writes the cell, and leaves in it what it would leave alone.
    obtain ⟨c, hc, hwrites⟩ := hx
    have h' := h.of_sameParts hparts
    have hc' := hparts.mem_iff.1 hc
    rw [final_filter (h.undisturbed c.1) (agree_refl steps c.1 m) rfl fun d hd hne =>
        h.notMem_writes hc hwrites hd hne, hparts c.1,
      final_filter (h'.undisturbed c.1) (agree_refl steps' c.1 m) rfl fun d hd hne =>
        h'.notMem_writes hc' hwrites hd hne]
  · -- No agent writes it, in either order.
    have hframe (steps'' : List (ι × α)) (hsub : ∀ c ∈ steps'', c ∈ steps) :
        A.final (steps''.map Prod.snd) m x = m x := by
      refine A.final_frame (fun a ha hwrites => ?_) m
      obtain ⟨c, hc, rfl⟩ := List.mem_map.1 ha
      exact hx ⟨c, hsub c hc, hwrites⟩
    rw [hframe steps fun _ hc => hc, hframe steps' fun _ hc => hparts.mem_iff.2 hc]

end Actions

end Vaa.Footprint
