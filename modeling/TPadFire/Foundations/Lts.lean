import Mathlib.Logic.Basic
import Mathlib.Data.List.Basic
import Mathlib.Tactic.TypeStar

/-!
# Labelled transition systems and their runs

A program that reacts to events is a labelled transition system: a relation `step s l t`, "the
label `l` leads from `s` to `t`". `Run s ls t` follows a list of labels. What one step preserves
holds along a run (`Run.invariant`, and `Run.invariant_mem` when the argument may use that the
label is one of the run's), and a relation that matches every step of one system by a step of
another matches whole runs (`Simulation.run`), as does a function that maps steps to steps
(`Run.refines`).

`Always Q s ls` says that every step taken along `ls` from `s` satisfies `Q`. It is the form in
which a property of all the states of a run is compared with a condition on its steps:
`always_iff_always` reduces that comparison to one step.
-/

namespace TPadFire

/-- A labelled transition system over states `σ` and labels `ℓ`. -/
structure Lts (σ ℓ : Type*) where
  /-- `step s l t`: the label `l` leads from `s` to `t`. -/
  step : σ → ℓ → σ → Prop

namespace Lts

variable {σ ℓ τ : Type*} {M : Lts σ ℓ} {N : Lts τ ℓ}

/-- `M.Run s ls t`: the labels `ls`, in order, lead from `s` to `t`. -/
inductive Run (M : Lts σ ℓ) : σ → List ℓ → σ → Prop
  | nil (s : σ) : Run M s [] s
  | cons {s t u : σ} {l : ℓ} {ls : List ℓ} (h : M.step s l t) (hr : Run M t ls u) :
      Run M s (l :: ls) u

@[simp] theorem run_nil {s t : σ} : M.Run s [] t ↔ s = t :=
  ⟨fun h => by cases h; rfl, fun h => h ▸ .nil s⟩

@[simp] theorem run_cons {s u : σ} {l : ℓ} {ls : List ℓ} :
    M.Run s (l :: ls) u ↔ ∃ t, M.step s l t ∧ M.Run t ls u :=
  ⟨fun h => by cases h with | cons h hr => exact ⟨_, h, hr⟩, fun ⟨_, h, hr⟩ => .cons h hr⟩

theorem run_append {s u : σ} {ls ls' : List ℓ} :
    M.Run s (ls ++ ls') u ↔ ∃ t, M.Run s ls t ∧ M.Run t ls' u := by
  induction ls generalizing s with
  | nil => simp
  | cons l ls ih =>
    simp only [List.cons_append, run_cons, ih]
    constructor
    · rintro ⟨t, h, v, hv, hu⟩
      exact ⟨v, ⟨t, h, hv⟩, hu⟩
    · rintro ⟨v, ⟨t, h, hv⟩, hu⟩
      exact ⟨t, h, v, hv, hu⟩

theorem Run.append {s t u : σ} {ls ls' : List ℓ} (h : M.Run s ls t) (h' : M.Run t ls' u) :
    M.Run s (ls ++ ls') u :=
  run_append.2 ⟨t, h, h'⟩

/-- What every step with a label of `ls` preserves, a run over `ls` preserves. -/
theorem Run.invariant_mem {I : σ → Prop} {s u : σ} {ls : List ℓ} (hr : M.Run s ls u)
    (hstep : ∀ s l t, l ∈ ls → I s → M.step s l t → I t) (hs : I s) : I u := by
  induction hr with
  | nil => exact hs
  | cons h _ ih =>
    exact ih (fun s l t hl => hstep s l t (List.mem_cons_of_mem _ hl))
      (hstep _ _ _ List.mem_cons_self hs h)

/-- **The invariant rule**: what every step preserves, every run preserves. -/
theorem Run.invariant {I : σ → Prop} {s u : σ} {ls : List ℓ} (hr : M.Run s ls u)
    (hstep : ∀ s l t, I s → M.step s l t → I t) (hs : I s) : I u :=
  hr.invariant_mem (fun s l t _ => hstep s l t) hs

/-! ## Simulation -/

/-- `R` matches every step of `M` from related states by a step of `N` with the same label. -/
def Simulation (M : Lts σ ℓ) (N : Lts τ ℓ) (R : σ → τ → Prop) : Prop :=
  ∀ s a l t, R s a → M.step s l t → ∃ b, N.step a l b ∧ R t b

/-- **The simulation rule**: a run of `M` from related states is a run of `N`. -/
theorem Simulation.run {R : σ → τ → Prop} (hR : Simulation M N R) {s u : σ} {ls : List ℓ}
    (hr : M.Run s ls u) {a : τ} (hs : R s a) : ∃ b, N.Run a ls b ∧ R u b := by
  induction hr generalizing a with
  | nil => exact ⟨a, .nil a, hs⟩
  | cons h _ ih =>
    obtain ⟨b, hb, hR'⟩ := hR _ _ _ _ hs h
    obtain ⟨c, hc, hR''⟩ := ih hR'
    exact ⟨c, .cons hb hc, hR''⟩

/-- **The refinement rule**: if each step of `M` that keeps to the invariant `I` is, seen through
`f`, a step of `N` with a label that `P` relates to its own, then so is each run. -/
theorem Run.refines {ℓ' : Type*} {N : Lts τ ℓ'} {f : σ → τ} {I : σ → Prop} {P : ℓ → ℓ' → Prop}
    {s u : σ} {ls : List ℓ} (hr : M.Run s ls u)
    (hstep : ∀ s l t, I s → M.step s l t → I t ∧ ∃ l', P l l' ∧ N.step (f s) l' (f t))
    (hs : I s) : I u ∧ ∃ ls', List.Forall₂ P ls ls' ∧ N.Run (f s) ls' (f u) := by
  induction hr with
  | nil => exact ⟨hs, [], .nil, .nil _⟩
  | cons h _ ih =>
    obtain ⟨ht, l', hP, hN⟩ := hstep _ _ _ hs h
    obtain ⟨hu, ls', hPs, hNs⟩ := ih ht
    exact ⟨hu, l' :: ls', .cons hP hPs, .cons hN hNs⟩

/-! ## Restricting the steps -/

/-- The system with only those steps of `M` that satisfy `C`. -/
def restrict (M : Lts σ ℓ) (C : σ → ℓ → Prop) : Lts σ ℓ where
  step s l t := M.step s l t ∧ C s l

@[simp] theorem restrict_step {C : σ → ℓ → Prop} {s t : σ} {l : ℓ} :
    (M.restrict C).step s l t ↔ M.step s l t ∧ C s l := Iff.rfl

/-! ## Properties of all steps of a run -/

/-- Every step taken along `ls` from `s` satisfies `Q`. -/
def Always (M : Lts σ ℓ) (Q : σ → ℓ → σ → Prop) : σ → List ℓ → Prop
  | _, [] => True
  | s, l :: ls => ∀ t, M.step s l t → Q s l t ∧ Always M Q t ls

/-- A step taken at the end of a run satisfies what every step does. -/
theorem Always.of_run {Q : σ → ℓ → σ → Prop} {s t u : σ} {ls : List ℓ} {l : ℓ}
    (h : M.Always Q s (ls ++ [l])) (hr : M.Run s ls t) (hstep : M.step t l u) : Q t l u := by
  induction hr with
  | nil => exact (h _ hstep).1
  | cons hfirst _ ih => exact ih (h _ hfirst).2 hstep

/-- **Comparing two step properties along runs.** If `Q` and `C` agree on every step from a state
with the invariant `I`, and `I` survives the steps that satisfy `C`, then all steps of a run satisfy
`Q` exactly when all of them satisfy `C`. -/
theorem always_iff_always {I : σ → Prop} {Q C : σ → ℓ → σ → Prop}
    (hQ : ∀ s l t, I s → M.step s l t → (Q s l t ↔ C s l t))
    (hI : ∀ s l t, I s → M.step s l t → C s l t → I t) {s : σ} (hs : I s) (ls : List ℓ) :
    M.Always Q s ls ↔ M.Always C s ls := by
  induction ls generalizing s with
  | nil => exact Iff.rfl
  | cons l ls ih =>
    constructor
    · intro h t ht
      have hC := (hQ s l t hs ht).1 (h t ht).1
      exact ⟨hC, (ih (hI s l t hs ht hC)).1 (h t ht).2⟩
    · intro h t ht
      have hC := (h t ht).1
      exact ⟨(hQ s l t hs ht).2 hC, (ih (hI s l t hs ht hC)).2 (h t ht).2⟩

end Lts

end TPadFire
