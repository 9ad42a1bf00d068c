import TPadFire.Foundations.Lts

/-!
# What a system emits, and monitors of it

Along a run a system emits events: `obs s l` are those of the step with the label `l` from `s`, and
`M.Emits obs s ls es t` says that the run over `ls` from `s` ends in `t` and emits `es`.

A monitor reads the events one after the other and has no next state once one is not allowed. If
every step of the system is matched by the monitor, what a run emits is allowed
(`Emits.accepted_within`). The match may hold only while a resource lasts that some of the events
use up: `R k s m` relates the states `s` and `m` as long as `k` of them are left.

`fifo` is the monitor of a queue: what comes out of it is what went in, in the same order, each
once (`entries_eq`).
-/

namespace TPadFire

namespace Lts

variable {σ ℓ ε μ : Type*} {M : Lts σ ℓ} {obs : σ → ℓ → List ε}

/-- The run over the labels `ls` from `s` ends in `t` and emits `es`. -/
inductive Emits (M : Lts σ ℓ) (obs : σ → ℓ → List ε) : σ → List ℓ → List ε → σ → Prop
  | nil (s : σ) : Emits M obs s [] [] s
  | cons {s t u : σ} {l : ℓ} {ls : List ℓ} {es : List ε} (h : M.step s l t)
      (hr : Emits M obs t ls es u) : Emits M obs s (l :: ls) (obs s l ++ es) u

/-- What is emitted is emitted along a run. -/
theorem Emits.run {s u : σ} {ls : List ℓ} {es : List ε} (h : M.Emits obs s ls es u) :
    M.Run s ls u := by
  induction h with
  | nil s => exact .nil s
  | cons h _ ih => exact .cons h ih

/-- Every run emits something. -/
theorem Run.emits {s u : σ} {ls : List ℓ} (h : M.Run s ls u) (obs : σ → ℓ → List ε) :
    ∃ es, M.Emits obs s ls es u := by
  induction h with
  | nil s => exact ⟨[], .nil s⟩
  | cons h _ ih =>
    obtain ⟨es, hes⟩ := ih
    exact ⟨_, .cons h hes⟩

/-- A run of a system whose steps are those of a function, with what it emits. -/
def perform (f : ℓ → σ → Option σ) (obs : σ → ℓ → List ε) : List ℓ → σ → Option (σ × List ε)
  | [], s => some (s, [])
  | l :: ls, s => (f l s).bind fun t => (perform f obs ls t).map fun r => (r.1, obs s l ++ r.2)

theorem emits_of_perform {f : ℓ → σ → Option σ} (hf : ∀ l s t, f l s = some t → M.step s l t)
    {s u : σ} {ls : List ℓ} {es : List ε} (h : perform f obs ls s = some (u, es)) :
    M.Emits obs s ls es u := by
  induction ls generalizing s es with
  | nil =>
    obtain ⟨rfl, rfl⟩ := Prod.mk.inj (Option.some.inj h)
    exact .nil s
  | cons l ls ih =>
    obtain ⟨t, ht, hrest⟩ := Option.bind_eq_some_iff.1 h
    obtain ⟨r, hr, heq⟩ := Option.map_eq_some_iff.1 hrest
    obtain ⟨rfl, rfl⟩ := Prod.mk.inj heq
    exact .cons (hf l s t ht) (ih hr)

/-- A run ends with its last step. -/
theorem Emits.of_append {s u : σ} {ls ls' : List ℓ} {es : List ε}
    (h : M.Emits obs s (ls ++ ls') es u) :
    ∃ t es₁ es₂, M.Emits obs s ls es₁ t ∧ M.Emits obs t ls' es₂ u ∧ es = es₁ ++ es₂ := by
  induction ls generalizing s es with
  | nil => exact ⟨s, [], es, .nil s, h, rfl⟩
  | cons l ls ih =>
    cases h with
    | cons hstep hr =>
      obtain ⟨t, es₁, es₂, h₁, h₂, rfl⟩ := ih hr
      exact ⟨t, _, es₂, .cons hstep h₁, h₂, (List.append_assoc ..).symm⟩

/-! ## Monitors -/

/-- The monitor `mon` allows the events `es` from its state `m`. -/
def Accepts (mon : μ → ε → Option μ) (m : μ) (es : List ε) : Prop := (es.foldlM mon m).isSome

/-- What is allowed is allowed up to any moment. -/
theorem Accepts.of_append {mon : μ → ε → Option μ} {m : μ} {es es' : List ε}
    (h : Accepts mon m (es ++ es')) : Accepts mon m es := by
  unfold Accepts at h ⊢
  rw [List.foldlM_append] at h
  cases hfold : es.foldlM mon m with
  | none => rw [hfold] at h; exact h
  | some m' => rfl

/-- **The monitor rule.** If the monitor matches every step of the system while the events that
count, those with `p`, are at most as many as are left, it allows what a run emits. -/
theorem Emits.accepted_within {mon : μ → ε → Option μ} {p : ε → Bool} {R : ℕ → σ → μ → Prop}
    (hstep : ∀ k s l t m, R (k + (obs s l).countP p) s m → M.step s l t →
      ∃ m', (obs s l).foldlM mon m = some m' ∧ R k t m')
    {s u : σ} {ls : List ℓ} {es : List ε} (hr : M.Emits obs s ls es u) {k : ℕ} {m : μ}
    (hs : R (k + es.countP p) s m) : ∃ m', es.foldlM mon m = some m' ∧ R k u m' := by
  induction hr generalizing m with
  | nil s => exact ⟨m, rfl, hs⟩
  | @cons s t u l ls es h _ ih =>
    rw [List.countP_append, Nat.add_comm ((obs s l).countP p), ← Nat.add_assoc] at hs
    obtain ⟨m₁, hm₁, ht⟩ := hstep _ s l t m hs h
    obtain ⟨m', hm', hu⟩ := ih ht
    refine ⟨m', ?_, hu⟩
    rw [List.foldlM_append, hm₁]
    exact hm'

/-- The monitor rule, when no event uses anything up. -/
theorem Emits.accepted {mon : μ → ε → Option μ} {R : σ → μ → Prop}
    (hstep : ∀ s l t m, R s m → M.step s l t → ∃ m', (obs s l).foldlM mon m = some m' ∧ R t m')
    {s u : σ} {ls : List ℓ} {es : List ε} (hr : M.Emits obs s ls es u) {m : μ} (hs : R s m) :
    ∃ m', es.foldlM mon m = some m' ∧ R u m' :=
  hr.accepted_within (p := fun _ => false) (R := fun _ => R) (k := 0)
    (fun _ s l t m => hstep s l t m) hs

end Lts

/-! ## Queues -/

/-- Something goes into a queue or comes out of it. -/
inductive Traffic (α : Type*)
  | entered (a : α)
  | left (a : α)
  deriving DecidableEq

namespace Traffic

variable {α : Type*}

/-- What has gone in, in order. -/
def entries : List (Traffic α) → List α
  | [] => []
  | entered a :: es => a :: entries es
  | left _ :: es => entries es

/-- What has come out, in order. -/
def exits : List (Traffic α) → List α
  | [] => []
  | entered _ :: es => exits es
  | left a :: es => a :: exits es

variable [DecidableEq α]

/-- The monitor of a queue. -/
def fifo (q : List α) : Traffic α → Option (List α)
  | entered a => some (q ++ [a])
  | left a =>
    match q with
    | [] => none
    | b :: q => if a = b then some q else none

/-- The first thing comes out. -/
theorem foldlM_left (a : α) (q : List α) : [left a].foldlM fifo (a :: q) = some q := by
  rw [List.foldlM_cons]
  unfold fifo
  dsimp only
  rw [if_pos rfl]
  rfl

/-- **What a queue keeps**: what was in it and what went in is what came out and what is in it. -/
theorem entries_eq {es : List (Traffic α)} {q q' : List α} (h : es.foldlM fifo q = some q') :
    q ++ entries es = exits es ++ q' := by
  induction es generalizing q with
  | nil =>
    obtain rfl := Option.some.inj h
    simp [entries, exits]
  | cons e es ih =>
    rw [List.foldlM_cons] at h
    obtain ⟨q₁, h₁, h'⟩ := Option.bind_eq_some_iff.1 h
    have ih' := ih h'
    cases e with
    | entered a =>
      obtain rfl := Option.some.inj h₁
      simpa [entries, exits] using ih'
    | left a =>
      cases q with
      | nil => cases h₁
      | cons b q =>
        unfold fifo at h₁
        dsimp only at h₁
        split_ifs at h₁ with hab
        obtain rfl := Option.some.inj h₁
        rw [hab]
        simpa [entries, exits] using ih'

end Traffic

end TPadFire
