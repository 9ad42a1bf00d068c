import TPadFire.Firmware.Statements

/-!
# Filling a half of the texture buffer

`handleTexture` sets the length of the half that is not in front and copies the samples into it byte
by byte, while `Timer3ISR` may be playing the other half. `Filling` says how far this has come, by
the statements that remain; each of them advances it (`Filling.main`), touches nothing but its half
(`Stmt.Fills.frame`), and with none of them left the half holds the samples (`Filling.holds`).
-/

namespace TPadFire.Firmware

/-- The statement is one of those that fill the half `s`. -/
def Stmt.Fills (s : Slot) : Stmt → Prop
  | .loadLength s' _ | .memmove s' | .copyByte s' _ => s' = s
  | _ => False

/-- How far the half `s` has been filled with `n` bytes at `raw`, by the statements that remain. -/
inductive Filling (raw : RawData) (n : ℕ) (t : TextureBuff) (s : Slot) : List Stmt → Prop
  | length : Filling raw n t s [.loadLength s n, .memmove s]
  | memmove (hl : t.length s = loadLength n) : Filling raw n t s [.memmove s]
  /-- A byte is still to be copied or has been. -/
  | copy (is : List (Fin maxBufferLength)) (hl : t.length s = loadLength n)
      (hc : ∀ i : Fin maxBufferLength, (i : ℕ) < n →
        i ∈ is ∨ t.buff s i = raw (Fin.castLE maxBufferLength_le i)) :
      Filling raw n t s (is.map (.copyByte s))

variable {raw : RawData} {n : ℕ} {t t' : TextureBuff} {s s' : Slot} {is : List Stmt} {i : Stmt}
  {rx : RecvBuffer}

theorem Filling.congr (h : Filling raw n t s is) (hl : t'.length s = t.length s)
    (hb : t'.buff s = t.buff s) : Filling raw n t' s is := by
  cases h with
  | length => exact .length
  | memmove h => exact .memmove (hl.trans h)
  | copy is h hc => exact .copy is (hl.trans h) (by rwa [hb])

theorem Filling.fills (h : Filling raw n t s is) : ∀ i ∈ is, i.Fills s := by
  cases h with
  | length => simp [Stmt.Fills]
  | memmove hl => simp [Stmt.Fills]
  | copy is hl hc =>
    intro i hi
    obtain ⟨j, -, rfl⟩ := List.mem_map.1 hi
    rfl

/-- Filling a half changes that half alone. -/
theorem Stmt.Fills.frame (h : i.Fills s) (rx : RecvBuffer) (d : Device) :
    ∃ t, i.effect rx d = { d with tBuff := t } ∧ t.front = d.tBuff.front ∧
      t.index = d.tBuff.index ∧ t.on = d.tBuff.on ∧
      ∀ s', s' ≠ s → t.length s' = d.tBuff.length s' ∧ t.buff s' = d.tBuff.buff s' := by
  cases i with
  | loadLength s₁ n =>
    obtain rfl : s₁ = s := h
    exact ⟨_, rfl, rfl, rfl, rfl, fun s' hs' => ⟨Function.update_of_ne hs' _ _, rfl⟩⟩
  | memmove s₁ => exact ⟨_, rfl, rfl, rfl, rfl, fun _ _ => ⟨rfl, rfl⟩⟩
  | copyByte s₁ j =>
    obtain rfl : s₁ = s := h
    exact ⟨_, rfl, rfl, rfl, rfl, fun s' hs' => ⟨rfl, Function.update_of_ne hs' _ _⟩⟩
  | _ => exact h.elim

/-- What fills a half expands to what fills that half. -/
theorem Stmt.Fills.expand (h : i.Fills s) (rx : RecvBuffer) (d : Device) :
    ∀ j ∈ i.expand rx d, j.Fills s := by
  cases i with
  | loadLength s₁ n => simp [Stmt.expand]
  | memmove s₁ =>
    intro j hj
    obtain ⟨k, -, rfl⟩ := List.mem_map.1 hj
    exact h
  | copyByte s₁ j => simp [Stmt.expand]
  | _ => exact h.elim

/-- **A statement advances the filling.** -/
theorem Filling.main {d : Device} (h : Filling (rawData rx) n d.tBuff s (i :: is)) :
    Filling (rawData rx) n (i.effect rx d).tBuff s (i.expand rx d ++ is) := by
  generalize hcode : i :: is = code at h
  cases h with
  | length =>
    obtain ⟨rfl, rfl⟩ := List.cons.inj hcode
    exact .memmove (Function.update_self s _ _)
  | memmove hl =>
    obtain ⟨rfl, rfl⟩ := List.cons.inj hcode
    rw [List.append_nil]
    refine .copy _ hl fun j hj => .inl ?_
    rw [Block.mem_take_finRange, hl, loadLength_eq]
    omega
  | copy js hl hc =>
    cases js with
    | nil => cases hcode
    | cons j js =>
      obtain ⟨rfl, rfl⟩ := List.cons.inj hcode
      refine .copy js hl fun k hk => ?_
      simp only [Stmt.effect, Function.update_self]
      by_cases hkj : k = j
      · rw [hkj, Function.update_self]
        exact .inr rfl
      · rw [Function.update_of_ne hkj]
        exact (hc k hk).imp_left fun hmem => (List.mem_cons.1 hmem).resolve_left hkj

/-- **A half with nothing left to copy holds the samples.** -/
theorem Filling.holds (h : Filling raw n t s []) :
    t.Holds s (raw.contents (min n maxBufferLength)) := by
  have hmax : maxBufferLength = 1000 := rfl
  have hlen : (raw.contents (min n maxBufferLength)).length = min n maxBufferLength := by
    rw [Block.length_contents]
    omega
  generalize hnil : ([] : List Stmt) = is at h
  cases h with
  | length => cases hnil
  | memmove => cases hnil
  | copy is hl hc =>
    obtain rfl : is = [] := List.map_eq_nil_iff.1 hnil.symm
    refine ⟨by rw [hl, loadLength_eq, hlen], by omega, ?_⟩
    rw [hlen, Block.contents_eq_iff (by omega) (by omega)]
    intro i hi
    exact (hc ⟨i, by omega⟩ (by simp only; omega)).resolve_left List.not_mem_nil

end TPadFire.Firmware
