import TPadFire.Firmware.Statements

/-!
# The samples that consecutive firings read

While nothing disturbs the texture buffer, the firings of `Timer3ISR` read a stream of samples that
the buffer determines: `TextureBuff.readAfter t s j` is what firing number `j` reads when `t` is the
buffer at the first one and the half `s` is in front. `Follows t s j d` says that in the device `d`
firing number `j` is next (`Follows.isr`).

When the half holds a list of samples, this is the list, round and round, if `Index` starts where it
should (`streamFrom_readAfter_iff`).
-/

namespace TPadFire.Firmware

open Interruptible

namespace TextureBuff

/-- The index after `j` firings with the half `s` in front. -/
def indexAfter (t : TextureBuff) (s : Slot) (j : ℕ) : ℤ := (stepIndex (t.length s))^[j] t.index

/-- What firing number `j` reads with the half `s` in front. -/
def readAfter (t : TextureBuff) (s : Slot) (j : ℕ) : Option Read :=
  ((t.buff s).cell? (t.indexAfter s j)).map fun b => ⟨s, t.indexAfter s j, b⟩

end TextureBuff

/-- Firing number `j` of the buffer `t`, with `s` in front, is next. -/
structure Follows (t : TextureBuff) (s : Slot) (j : ℕ) (d : Device) : Prop where
  front : d.tBuff.front = s.byte
  buff : d.tBuff.buff s = t.buff s
  length : d.tBuff.length s = t.length s
  index : d.tBuff.index = t.indexAfter s j

variable {t : TextureBuff} {s : Slot} {j : ℕ} {d d' : Device}

theorem follows_zero (h : d.tBuff.front = s.byte) : Follows d.tBuff s 0 d := ⟨h, rfl, rfl, rfl⟩

theorem Follows.congr (h : Follows t s j d) (hf : d'.tBuff.front = d.tBuff.front)
    (hb : d'.tBuff.buff s = d.tBuff.buff s) (hl : d'.tBuff.length s = d.tBuff.length s)
    (hi : d'.tBuff.index = d.tBuff.index) : Follows t s j d' :=
  ⟨hf.trans h.front, hb.trans h.buff, hl.trans h.length, hi.trans h.index⟩

/-- **A firing reads the next sample** and sets its PWM count. -/
theorem Follows.isr {r : Option Read} (h : Follows t s j d) (hisr : timer3ISR d = some (r, d')) :
    r = t.readAfter s j ∧ Follows t s (j + 1) d' ∧
      ∃ b, t.readAfter s j = some ⟨s, t.indexAfter s j, b⟩ ∧
        d' = { d with
          oc3rs := dutyCount (d.pr2 + 1) (levelDuty b)
          t3if := false
          tBuff := { d.tBuff with index := t.indexAfter s (j + 1) } } := by
  obtain ⟨b, hb, rfl, rfl⟩ := timer3ISR_some h.front hisr
  have hread : t.readAfter s j = some ⟨s, t.indexAfter s j, b⟩ := by
    rw [TextureBuff.sample?, h.buff, h.index] at hb
    rw [TextureBuff.readAfter, hb, Option.map_some]
  have hnext : d.tBuff.nextIndex s = t.indexAfter s (j + 1) := by
    rw [TextureBuff.nextIndex, h.length, h.index, TextureBuff.indexAfter, TextureBuff.indexAfter,
      Function.iterate_succ_apply']
  rw [hread, h.index, hnext]
  exact ⟨rfl, ⟨h.front, h.buff, h.length, rfl⟩, b, rfl, rfl⟩

/-- **The PWM count after firings** is that of the last sample they read. -/
theorem follows_firings {rs : List (Option Read)} {b b' : Board} {is js : List Stmt}
    (h : Follows t s j b.dev) (hrun : firmware.lts.Run ⟨is, b⟩ (firings rs) ⟨js, b'⟩) :
    Follows t s (j + rs.length) b'.dev ∧
      ((rs = [] ∧ b'.dev.oc3rs = b.dev.oc3rs) ∨
        rs ≠ [] ∧ ∃ r, t.readAfter s (j + rs.length - 1) = some r ∧
          b'.dev.oc3rs = dutyCount (b.dev.pr2 + 1) (levelDuty r.value)) := by
  induction rs generalizing b j with
  | nil =>
    obtain ⟨-, rfl⟩ := Config.mk.inj (Lts.run_nil.1 hrun)
    exact ⟨h, .inl ⟨rfl, rfl⟩⟩
  | cons r rs ih =>
    obtain ⟨c, hstep, hrest⟩ := Lts.run_cons.1 hrun
    cases hstep with
    | isr he hisr =>
      obtain ⟨d₁, hd₁, rfl⟩ := firmware_isr hisr
      obtain ⟨-, h₁, v, hv, rfl⟩ := h.isr hd₁
      obtain ⟨hlast, hcount⟩ := ih h₁ hrest
      have hlen : j + 1 + rs.length = j + (r :: rs).length := by
        rw [List.length_cons]
        omega
      rw [hlen] at hlast hcount
      refine ⟨hlast, .inr ⟨List.cons_ne_nil _ _, ?_⟩⟩
      rcases hcount with ⟨rfl, hsame⟩ | ⟨-, r', hr', hcount⟩
      · exact ⟨_, hv, hsame⟩
      · exact ⟨r', hr', hcount⟩

/-- Nothing happens between two requests while the interrupt is disabled. -/
theorem run_disabled {ls : Trace} {b : Board} {c : Config Board Stmt} (h : b.dev.t3ie = false)
    (hrun : firmware.lts.Run ⟨[], b⟩ ls c) (hc : NoCall ls) : ls = [] ∧ c = ⟨[], b⟩ := by
  cases hrun with
  | nil => exact ⟨rfl, rfl⟩
  | cons hstep _ =>
    cases hstep with
    | @call k => exact absurd List.mem_cons_self (hc k)
    | isr he hisr => cases h.symm.trans he

/-! ## Playing a list round and round -/

/-- What the firing at position `k` reads when the samples `l` are played round and round. -/
def cyclic (s : Slot) (l : List Byte) (k : ℕ) : Option Read :=
  l[k % l.length]?.map fun b => ⟨s, (k % l.length : ℕ), b⟩

theorem indexAfter_eq {l : List Byte} {k : ℕ} (h : t.Holds s l) (hk : t.index = k)
    (hlt : k < l.length) (j : ℕ) : t.indexAfter s j = ((k + j) % l.length : ℕ) := by
  induction j with
  | zero => rw [TextureBuff.indexAfter, Function.iterate_zero_apply, hk, Nat.add_zero,
      Nat.mod_eq_of_lt hlt]
  | succ j ih =>
    rw [TextureBuff.indexAfter, Function.iterate_succ_apply', ← TextureBuff.indexAfter, ih,
      h.length, stepIndex_natCast (Nat.mod_lt _ (by omega)), Nat.mod_add_mod, Nat.add_assoc]

theorem readAfter_eq {l : List Byte} {k : ℕ} (h : t.Holds s l) (hk : t.index = k)
    (hlt : k < l.length) (j : ℕ) : t.readAfter s j = cyclic s l (k + j) := by
  have hmod : (k + j) % l.length < l.length := Nat.mod_lt _ (by omega)
  rw [TextureBuff.readAfter, indexAfter_eq h hk hlt, h.cell hmod, cyclic,
    List.getElem?_eq_getElem hmod]

/-- **When firings play a list.** From an index `k`, they read the list as from position `a`, round
and round, exactly when `k` is that position, or there are none. -/
theorem streamFrom_readAfter_iff {l : List Byte} {k a m : ℕ} (h : t.Holds s l) (hk : t.index = k)
    (hpos : 0 < l.length) :
    streamFrom (t.readAfter s) 0 m = streamFrom (cyclic s l) a m ↔ m = 0 ∨ k = a % l.length := by
  have hmod : a % l.length < l.length := Nat.mod_lt _ hpos
  constructor
  · intro heq
    obtain rfl | m := m
    · exact .inl rfl
    · right
      rw [streamFrom_succ, streamFrom_succ] at heq
      have hfirst := (List.cons.inj heq).1
      rw [TextureBuff.readAfter, TextureBuff.indexAfter, Function.iterate_zero_apply, cyclic,
        List.getElem?_eq_getElem hmod, hk] at hfirst
      obtain ⟨b, -, hb⟩ := Option.map_eq_some_iff.1 hfirst
      have hindex : (k : ℤ) = (a % l.length : ℕ) := congrArg Read.index hb
      exact_mod_cast hindex
  · rintro (rfl | rfl)
    · rfl
    · refine streamFrom_congr fun j _ => ?_
      rw [readAfter_eq h hk hmod, Nat.zero_add, cyclic, cyclic, Nat.mod_add_mod]

/-! ## A texture in front -/

/-- The receive buffer with the texture 9, 8, 7, 6, 5. -/
def firstTexture : RecvBuffer := receive [commandText, 9, 8, 7, 6, 5] fun _ => 0

/-- The device once the first texture is playing. -/
def playingFirst : Device := handleTexture (rawData firstTexture) 5 boot

theorem playingFirst_holds :
    playingFirst.tBuff.front = Slot.buff1.byte ∧ playingFirst.tBuff.on = 1 ∧
      playingFirst.t3ie = true ∧ playingFirst.tBuff.Holds .buff1 [9, 8, 7, 6, 5] ∧
      playingFirst.tBuff.index = (0 : ℕ) :=
  ⟨rfl, rfl, rfl, ⟨by decide +kernel, by decide, by decide +kernel⟩, by decide +kernel⟩

end TPadFire.Firmware
