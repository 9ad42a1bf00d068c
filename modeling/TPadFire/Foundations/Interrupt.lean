import Mathlib.Data.List.TakeWhile
import TPadFire.Foundations.Lts

/-!
# Programs interrupted between their statements

An `Interruptible` is a single-threaded program over a memory `σ`: requests `κ` start a handler
while the program is idle, a handler is a list of atomic statements `ι`, and an interrupt service
routine runs, itself atomic, between any two statements while it is enabled. A statement may expand
to further statements (a branch, a loop), which run before what follows it. What the service
routine reads is the output `ρ` of its firing.

`Interruptible.lts` is the transition system of all interleavings, with the statements executed and
the outputs read as labels. `Exec` is the uninterrupted execution of a handler, one of its runs
(`Exec.run`). `schedule` computes the run that follows a list of choices (`schedule_run`), so that a
particular interleaving can be evaluated.

A run of a handler is taken apart by `run_cons_code`, which splits off its next statement and the
firings before it, and by `run_append_code`. Along a run, `before p` and `after p` are the labels up
to and after the first statement that satisfies `p`, and `reads` the outputs. When each firing
outputs the next element of a stream and the statements do not disturb it, the reads of a run are a
segment of the stream (`reads_of_run`).
-/

namespace TPadFire

/-- A program of atomic statements with an interrupt service routine. -/
structure Interruptible (σ κ ι ρ : Type*) where
  /-- A request, accepted while no handler runs: the handler's statements and the memory. -/
  call : κ → σ → Option (List ι × σ)
  /-- One statement: what it expands to and the memory; `none` when it traps. -/
  exec : ι → σ → Option (List ι × σ)
  /-- Whether the interrupt is enabled. -/
  enabled : σ → Bool
  /-- The service routine: what it reads and the memory; `none` when it traps. -/
  isr : σ → Option (ρ × σ)

namespace Interruptible

/-- The statements still to run, and the memory. -/
structure Config (σ ι : Type*) where
  code : List ι
  mem : σ

/-- One step: a request, a statement or a firing of the service routine. -/
inductive Label (κ ι ρ : Type*)
  | call (k : κ)
  | main (i : ι)
  | isr (r : ρ)
  deriving DecidableEq

variable {σ κ ι ρ : Type*} (P : Interruptible σ κ ι ρ)

/-- The steps of all interleavings. -/
inductive Step : Config σ ι → Label κ ι ρ → Config σ ι → Prop
  | call {k : κ} {s s' : σ} {is : List ι} (h : P.call k s = some (is, s')) :
      Step ⟨[], s⟩ (.call k) ⟨is, s'⟩
  | main {i : ι} {is js : List ι} {s s' : σ} (h : P.exec i s = some (js, s')) :
      Step ⟨i :: is, s⟩ (.main i) ⟨js ++ is, s'⟩
  | isr {r : ρ} {is : List ι} {s s' : σ} (he : P.enabled s = true) (h : P.isr s = some (r, s')) :
      Step ⟨is, s⟩ (.isr r) ⟨is, s'⟩

/-- The transition system of all interleavings. -/
def lts : Lts (Config σ ι) (Label κ ι ρ) := ⟨P.Step⟩

variable {P}

@[simp] theorem lts_step {c c' : Config σ ι} {l : Label κ ι ρ} :
    P.lts.step c l c' ↔ P.Step c l c' := Iff.rfl

/-! ## Execution without interrupts -/

/-- The statements run to the end, without a firing of the service routine. -/
inductive Exec (P : Interruptible σ κ ι ρ) : List ι → σ → σ → Prop
  | nil (s : σ) : Exec P [] s s
  | cons {i : ι} {is js : List ι} {s t u : σ} (h : P.exec i s = some (js, t))
      (hr : Exec P (js ++ is) t u) : Exec P (i :: is) s u

theorem Exec.append {is js : List ι} {s t u : σ} (h : P.Exec is s t) (h' : P.Exec js t u) :
    P.Exec (is ++ js) s u := by
  induction h with
  | nil => exact h'
  | cons h _ ih =>
    have hrest := ih h'
    rw [List.append_assoc] at hrest
    exact .cons h hrest

/-- Uninterrupted execution is one of the interleavings. -/
theorem Exec.run {is : List ι} {s t : σ} (h : P.Exec is s t) :
    ∃ ms : List ι, P.lts.Run ⟨is, s⟩ (ms.map .main) ⟨[], t⟩ := by
  induction h with
  | nil s => exact ⟨[], .nil _⟩
  | @cons i is js s t u h _ ih =>
    obtain ⟨ms, hms⟩ := ih
    exact ⟨i :: ms, .cons (.main h) hms⟩

/-! ## Following a schedule -/

/-- What happens next in a schedule. -/
inductive Choice (κ : Type*)
  | call (k : κ)
  | main
  | isr

/-- The step a choice makes, if there is one. -/
def choose (P : Interruptible σ κ ι ρ) (c : Config σ ι) :
    Choice κ → Option (Label κ ι ρ × Config σ ι)
  | .call k =>
    match c.code with
    | [] => (P.call k c.mem).map fun r => (.call k, ⟨r.1, r.2⟩)
    | _ :: _ => none
  | .main =>
    match c.code with
    | [] => none
    | i :: is => (P.exec i c.mem).map fun r => (.main i, ⟨r.1 ++ is, r.2⟩)
  | .isr =>
    if P.enabled c.mem then (P.isr c.mem).map fun r => (.isr r.1, ⟨c.code, r.2⟩) else none

/-- The run that follows a schedule: its labels and its last configuration. -/
def schedule (P : Interruptible σ κ ι ρ) :
    Config σ ι → List (Choice κ) → Option (List (Label κ ι ρ) × Config σ ι)
  | c, [] => some ([], c)
  | c, x :: xs => (P.choose c x).bind fun r => (P.schedule r.2 xs).map fun q => (r.1 :: q.1, q.2)

theorem choose_step {c c' : Config σ ι} {x : Choice κ} {l : Label κ ι ρ}
    (h : P.choose c x = some (l, c')) : P.lts.step c l c' := by
  obtain ⟨code, s⟩ := c
  cases x with
  | call k =>
    cases code with
    | nil =>
      simp only [choose, Option.map_eq_some_iff, Prod.mk.injEq] at h
      obtain ⟨⟨is, s'⟩, hk, rfl, rfl⟩ := h
      exact .call hk
    | cons i is => simp [choose] at h
  | main =>
    cases code with
    | nil => simp [choose] at h
    | cons i is =>
      simp only [choose, Option.map_eq_some_iff, Prod.mk.injEq] at h
      obtain ⟨⟨js, s'⟩, hi, rfl, rfl⟩ := h
      exact .main hi
  | isr =>
    by_cases he : P.enabled s = true
    · simp only [choose, he, if_true, Option.map_eq_some_iff, Prod.mk.injEq] at h
      obtain ⟨⟨r, s'⟩, hr, rfl, rfl⟩ := h
      exact .isr he hr
    · simp [choose, he] at h

/-- **A schedule that can be followed is a run.** -/
theorem schedule_run {xs : List (Choice κ)} {c c' : Config σ ι} {ls : List (Label κ ι ρ)}
    (h : P.schedule c xs = some (ls, c')) : P.lts.Run c ls c' := by
  induction xs generalizing c ls with
  | nil =>
    simp only [schedule, Option.some.injEq, Prod.mk.injEq] at h
    obtain ⟨rfl, rfl⟩ := h
    exact .nil _
  | cons x xs ih =>
    simp only [schedule, Option.bind_eq_some_iff, Option.map_eq_some_iff, Prod.mk.injEq] at h
    obtain ⟨⟨l, c₁⟩, hx, ⟨ls', c₂⟩, hxs, rfl, rfl⟩ := h
    exact .cons (choose_step hx) (ih hxs)

/-- A schedule can be followed if its labels, the remaining code and a part `f` of the memory can be
computed. -/
theorem run_of_schedule {α : Type*} (f : σ → α) (xs : List (Choice κ)) {c : Config σ ι}
    {ls : List (Label κ ι ρ)} {is : List ι} {a : α}
    (h : (P.schedule c xs).map (fun r => (r.1, r.2.code, f r.2.mem)) = some (ls, is, a)) :
    ∃ s, P.lts.Run c ls ⟨is, s⟩ ∧ f s = a := by
  obtain ⟨⟨ls', code, s⟩, hxs, heq⟩ := Option.map_eq_some_iff.1 h
  simp only [Prod.mk.injEq] at heq
  obtain ⟨rfl, rfl, ha⟩ := heq
  exact ⟨s, schedule_run hxs, ha⟩

/-! ## Reading a run -/

namespace Label

/-- The label is a statement that satisfies `p`. -/
def isMain (p : ι → Bool) : Label κ ι ρ → Bool
  | .main i => p i
  | _ => false

/-- The output, when the label is a firing. -/
def read? : Label κ ι ρ → Option ρ
  | .isr r => some r
  | _ => none

end Label

/-- The outputs of the firings, in order. -/
def reads (ls : List (Label κ ι ρ)) : List ρ := ls.filterMap Label.read?

/-- The labels before the first statement that satisfies `p`. -/
def before (p : ι → Bool) (ls : List (Label κ ι ρ)) : List (Label κ ι ρ) :=
  ls.takeWhile fun l => !l.isMain p

/-- The labels after the first statement that satisfies `p`. -/
def after (p : ι → Bool) (ls : List (Label κ ι ρ)) : List (Label κ ι ρ) :=
  (ls.dropWhile fun l => !l.isMain p).tail

/-- No request is among the labels. -/
def NoCall (ls : List (Label κ ι ρ)) : Prop := ∀ k, Label.call k ∉ ls

/-- Firings as labels. -/
def firings (rs : List ρ) : List (Label κ ι ρ) := rs.map .isr

@[simp] theorem reads_nil : reads ([] : List (Label κ ι ρ)) = [] := rfl

@[simp] theorem reads_call (k : κ) (ls : List (Label κ ι ρ)) :
    reads (.call k :: ls) = reads ls := rfl

@[simp] theorem reads_main (i : ι) (ls : List (Label κ ι ρ)) :
    reads (.main i :: ls) = reads ls := rfl

@[simp] theorem reads_isr (r : ρ) (ls : List (Label κ ι ρ)) :
    reads (.isr r :: ls) = r :: reads ls := rfl

@[simp] theorem reads_append (ls ls' : List (Label κ ι ρ)) :
    reads (ls ++ ls') = reads ls ++ reads ls' := List.filterMap_append

@[simp] theorem reads_firings (rs : List ρ) : reads (firings rs : List (Label κ ι ρ)) = rs := by
  induction rs with
  | nil => rfl
  | cons r rs ih => exact congrArg (r :: ·) ih

theorem isMain_of_mem_firings {p : ι → Bool} {rs : List ρ} {l : Label κ ι ρ}
    (h : l ∈ firings rs) : l.isMain p = false := by
  obtain ⟨r, -, rfl⟩ := List.mem_map.1 h
  rfl

theorem noCall_firings (rs : List ρ) : NoCall (firings rs : List (Label κ ι ρ)) := by
  intro k hk
  obtain ⟨r, -, hr⟩ := List.mem_map.1 hk
  cases hr

section Split

variable {p : ι → Bool} {ls ls' : List (Label κ ι ρ)} {i : ι}

theorem before_append (h : ∀ l ∈ ls, l.isMain p = false) :
    before p (ls ++ ls') = ls ++ before p ls' :=
  List.takeWhile_append_of_pos fun l hl => by simp only [h l hl, Bool.not_false]

theorem after_append (h : ∀ l ∈ ls, l.isMain p = false) : after p (ls ++ ls') = after p ls' := by
  rw [after, List.dropWhile_append_of_pos fun l hl => by simp only [h l hl, Bool.not_false], after]

theorem before_main_of (h : p i = true) : before p (.main i :: ls) = [] :=
  List.takeWhile_cons_of_neg (by simp only [Label.isMain, h, Bool.not_true]; decide)

theorem after_main_of (h : p i = true) : after p (.main i :: ls) = ls := by
  rw [after, List.dropWhile_cons_of_neg (by simp only [Label.isMain, h, Bool.not_true]; decide),
    List.tail_cons]

theorem before_main_of_not (h : p i = false) :
    before p (.main i :: ls) = .main i :: before p ls :=
  List.takeWhile_cons_of_pos (by simp only [Label.isMain, h, Bool.not_false])

theorem after_main_of_not (h : p i = false) : after p (.main i :: ls) = after p ls := by
  rw [after, List.dropWhile_cons_of_pos (by simp only [Label.isMain, h, Bool.not_false]), after]

theorem NoCall.left (h : NoCall (ls ++ ls')) : NoCall ls :=
  fun k hk => h k (List.mem_append_left _ hk)

theorem NoCall.right (h : NoCall (ls ++ ls')) : NoCall ls' :=
  fun k hk => h k (List.mem_append_right _ hk)

theorem NoCall.tail {l : Label κ ι ρ} (h : NoCall (l :: ls)) : NoCall ls :=
  fun k hk => h k (List.mem_cons_of_mem _ hk)

end Split

/-! ## Taking a run of a handler apart -/

/-- **The next statement**: firings come before it, and the run goes on from what it expands to. -/
theorem run_cons_code {i : ι} {is : List ι} {s s' : σ} {ls : List (Label κ ι ρ)}
    (h : P.lts.Run ⟨i :: is, s⟩ ls ⟨[], s'⟩) :
    ∃ rs s₁ js s₂ ls', ls = firings rs ++ .main i :: ls' ∧
      P.lts.Run ⟨[], s⟩ (firings rs) ⟨[], s₁⟩ ∧ P.exec i s₁ = some (js, s₂) ∧
      P.lts.Run ⟨js ++ is, s₂⟩ ls' ⟨[], s'⟩ := by
  induction ls generalizing s with
  | nil => cases h
  | cons l ls ih =>
    obtain ⟨c, hstep, hrest⟩ := Lts.run_cons.1 h
    cases hstep with
    | @main _ _ js _ s₂ hexec => exact ⟨[], s, js, s₂, ls, rfl, .nil _, hexec, hrest⟩
    | @isr r _ _ s₁ he hisr =>
      obtain ⟨rs, s₁', js, s₂, ls', rfl, hrs, hexec, hrest'⟩ := ih hrest
      exact ⟨r :: rs, s₁', js, s₂, ls', rfl, .cons (.isr he hisr) hrs, hexec, hrest'⟩

/-- **Sequencing**: a run of `is` followed by `js` is a run of `is` and then a run of `js`. -/
theorem run_append_code (is js : List ι) {s s' : σ} {ls : List (Label κ ι ρ)}
    (h : P.lts.Run ⟨is ++ js, s⟩ ls ⟨[], s'⟩) (hc : NoCall ls) :
    ∃ ls₁ ls₂ s₁, ls = ls₁ ++ ls₂ ∧ P.lts.Run ⟨is, s⟩ ls₁ ⟨[], s₁⟩ ∧
      P.lts.Run ⟨js, s₁⟩ ls₂ ⟨[], s'⟩ := by
  induction ls generalizing is s with
  | nil =>
    cases is with
    | nil => exact ⟨[], [], s, rfl, .nil _, h⟩
    | cons i is => cases h
  | cons l ls ih =>
    obtain ⟨c, hstep, hrest⟩ := Lts.run_cons.1 h
    cases is with
    | nil => exact ⟨[], l :: ls, s, rfl, .nil _, h⟩
    | cons i is =>
      cases hstep with
      | @main _ _ ks _ s₂ hexec =>
        have hrest' : P.lts.Run ⟨(ks ++ is) ++ js, s₂⟩ ls ⟨[], s'⟩ := by
          rwa [List.append_assoc]
        obtain ⟨ls₁, ls₂, s₁, rfl, h₁, h₂⟩ := ih _ hrest' hc.tail
        exact ⟨_ :: ls₁, ls₂, s₁, rfl, .cons (.main hexec) h₁, h₂⟩
      | @isr r _ _ s₂ he hisr =>
        obtain ⟨ls₁, ls₂, s₁, rfl, h₁, h₂⟩ := ih (i :: is) hrest hc.tail
        exact ⟨_ :: ls₁, ls₂, s₁, rfl, .cons (.isr he hisr) h₁, h₂⟩

/-! ## Streams of outputs -/

/-- The elements of a stream from position `n` on. -/
def streamFrom (f : ℕ → ρ) (n k : ℕ) : List ρ := (List.range k).map fun j => f (n + j)

@[simp] theorem length_streamFrom (f : ℕ → ρ) (n k : ℕ) : (streamFrom f n k).length = k := by
  simp [streamFrom]

@[simp] theorem streamFrom_zero (f : ℕ → ρ) (n : ℕ) : streamFrom f n 0 = [] := rfl

theorem streamFrom_succ (f : ℕ → ρ) (n k : ℕ) :
    streamFrom f n (k + 1) = f n :: streamFrom f (n + 1) k := by
  simp only [streamFrom, List.range_succ_eq_map, List.map_cons, List.map_map, Nat.add_zero,
    List.cons.injEq, true_and]
  exact List.map_congr_left fun j _ => by simp only [Function.comp_apply]; congr 1; omega

theorem streamFrom_add (f : ℕ → ρ) (n k k' : ℕ) :
    streamFrom f n (k + k') = streamFrom f n k ++ streamFrom f (n + k) k' := by
  induction k generalizing n with
  | zero => simp
  | succ k ih =>
    rw [show k + 1 + k' = (k + k') + 1 by omega, streamFrom_succ, ih, streamFrom_succ,
      List.cons_append, show n + 1 + k = n + (k + 1) by omega]

theorem streamFrom_congr {f g : ℕ → ρ} {n n' k : ℕ} (h : ∀ j < k, f (n + j) = g (n' + j)) :
    streamFrom f n k = streamFrom g n' k :=
  List.map_congr_left fun j hj => h j (List.mem_range.1 hj)

/-- **The reads of a run.** Let `R j` say of a memory that the next firing is number `j` of the
stream `f`. If firings keep to the stream, and the statements with `Q` do not disturb it and expand
to such statements only, then a run of such statements reads a segment of the stream. -/
theorem reads_of_run {f : ℕ → ρ} {R : ℕ → σ → Prop} {Q : ι → Prop}
    (hisr : ∀ j s r s', R j s → P.enabled s = true → P.isr s = some (r, s') →
      r = f j ∧ R (j + 1) s')
    (hmain : ∀ j i s js s', Q i → R j s → P.exec i s = some (js, s') →
      R j s' ∧ ∀ i' ∈ js, Q i')
    {c c' : Config σ ι} {ls : List (Label κ ι ρ)} (h : P.lts.Run c ls c') (hc : NoCall ls)
    (hQ : ∀ i ∈ c.code, Q i) {j : ℕ} (hR : R j c.mem) :
    reads ls = streamFrom f j (reads ls).length ∧ R (j + (reads ls).length) c'.mem ∧
      ∀ i, .main i ∈ ls → Q i := by
  induction h generalizing j with
  | nil => simpa using hR
  | cons hstep _ ih =>
    cases hstep with
    | @call k s s' is hk => exact absurd List.mem_cons_self (hc k)
    | @main i is js s s' hexec =>
      obtain ⟨hR', hjs⟩ := hmain j i s js s' (hQ i List.mem_cons_self) hR hexec
      have hQ' : ∀ i' ∈ js ++ is, Q i' := fun i' hi' =>
        (List.mem_append.1 hi').elim (hjs i') fun hi' => hQ i' (List.mem_cons_of_mem _ hi')
      obtain ⟨hreads, hlast, hall⟩ := ih hc.tail hQ' hR'
      refine ⟨hreads, hlast, fun i' hi' => ?_⟩
      rcases List.mem_cons.1 hi' with heq | hi'
      · obtain rfl : i' = i := by injection heq
        exact hQ i' List.mem_cons_self
      · exact hall i' hi'
    | @isr r is s s' he hr =>
      obtain ⟨rfl, hR'⟩ := hisr j s r s' hR he hr
      obtain ⟨hreads, hlast, hall⟩ := ih hc.tail hQ hR'
      refine ⟨?_, ?_, fun i' hi' => hall i' (by simpa using hi')⟩
      · rw [reads_isr, List.length_cons, streamFrom_succ, ← hreads]
      · rwa [reads_isr, List.length_cons, ← Nat.add_assoc, Nat.add_right_comm]

end Interruptible

end TPadFire
