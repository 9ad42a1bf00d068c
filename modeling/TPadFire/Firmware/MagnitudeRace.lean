import TPadFire.Firmware.Firings

/-!
# A magnitude command while a texture is playing

The branch `COMMAND_MAG` sets the PWM count first and disables the interrupt of Timer3 afterwards. A
firing between these two statements writes the count of a sample over that of the level, and then
playback stops. `magnitude_iff` says that this is the only way for the level to be lost: the command
wins exactly when there is no such firing, or the last sample played has the count of the level. In
every case playback stops and no firing follows until a texture is accepted (`silent_run`).
-/

namespace TPadFire.Firmware

open Interruptible

variable {d : Device} {rx : RecvBuffer} {b b' : Board} {s : Slot} {n : ℕ} {ls : Trace}

/-- The payload starts a texture. -/
def IsTexture (p : List Byte) : Prop := p.length > 5 ∧ p.head? = some commandText

/-! ## After playback has stopped -/

/-- A statement of the branches that start no texture. -/
def Stmt.Mute : Stmt → Prop
  | .incoming | .period | .clearTMR2 | .tpadMag | .setDC | .clearT3IE | .on _ | .resetCoreTimer =>
    True
  | .callback _ | .testFront _ | .loadLength _ _ | .memmove _ | .copyByte _ _ | .clearIndex |
    .front _ | .testOn | .clearTMR3 | .setT3IE => False

/-- The interrupt is disabled and no statement that remains can enable it. -/
def Silent (c : Config Board Stmt) : Prop :=
  c.mem.dev.t3ie = false ∧
    ((∀ i ∈ c.code, i.Mute) ∨
      ∃ p rx, ¬ IsTexture p ∧ c.code = [.callback p.length] ∧ c.mem.rx = receive p rx)

theorem Stmt.Mute.frame {i : Stmt} (h : i.Mute) (rx : RecvBuffer) {d : Device}
    (hd : d.t3ie = false) : (i.effect rx d).t3ie = false ∧ i.expand rx d = [] := by
  cases i with
  | incoming | period | clearTMR2 | tpadMag => exact ⟨by rw [Stmt.effect]; exact hd, rfl⟩
  | setDC | on | resetCoreTimer => exact ⟨hd, rfl⟩
  | clearT3IE => exact ⟨rfl, rfl⟩
  | _ => exact h.elim

theorem callbackCode_mute {p : List Byte} (hp : ¬ IsTexture p) (rx : RecvBuffer) :
    ∀ i ∈ callbackCode (receive p rx) p.length, i.Mute := by
  rw [callbackCode]
  split_ifs with h1 h2 h3
  · simp
  · cases p with
    | nil => simp at h2
    | cons id rest =>
      refine absurd ⟨h2, ?_⟩ hp
      rw [List.head?_cons, ← h3, receive_zero]
  all_goals simp [Stmt.Mute]

/-- A step without a texture leaves the interrupt disabled, and is not a firing. -/
theorem silent_step {c c' : Config Board Stmt} {l : Label (List Byte) Stmt (Option Read)}
    (hl : ∀ p, l = .call p → ¬ IsTexture p) (hc : Silent c) (h : firmware.lts.step c l c') :
    Silent c' ∧ l.read? = none := by
  obtain ⟨hie, hcode⟩ := hc
  cases h with
  | @call p b b' is hcall =>
    simp only [firmware] at hcall
    split_ifs at hcall
    obtain ⟨rfl, rfl⟩ := Prod.mk.inj (Option.some.inj hcall)
    exact ⟨⟨hie, .inr ⟨p, b.rx, hl p rfl, rfl, rfl⟩⟩, rfl⟩
  | @main i is js b b' hexec =>
    obtain ⟨rfl, rfl⟩ := exec_some hexec
    refine ⟨?_, rfl⟩
    rcases hcode with hmute | ⟨p, rx, hp, hcode, hrx⟩
    · obtain ⟨hie', hexp⟩ := (hmute i List.mem_cons_self).frame b.rx hie
      exact ⟨hie', .inl (by rw [hexp]; exact fun j hj => hmute j (List.mem_cons_of_mem _ hj))⟩
    · obtain ⟨rfl, rfl⟩ := List.cons.inj hcode
      have hrx' : b.rx = receive p rx := hrx
      refine ⟨hie, .inl ?_⟩
      rw [List.append_nil, Stmt.expand, hrx']
      exact callbackCode_mute hp rx
  | @isr r is b b' he hisr => cases hie.symm.trans he

/-- **After playback has stopped** no firing follows until a texture is accepted. -/
theorem silent_run {c c' : Config Board Stmt} (hrun : firmware.lts.Run c ls c') (hc : Silent c)
    (hls : ∀ p, .call p ∈ ls → ¬ IsTexture p) : reads ls = [] := by
  induction hrun with
  | nil => rfl
  | @cons c c₁ c₂ l ls hstep _ ih =>
    obtain ⟨hc', hl⟩ := silent_step (fun p hp => hls p (hp ▸ List.mem_cons_self)) hc hstep
    rw [reads, List.filterMap_cons_none hl]
    exact ih hc' fun p hp => hls p (List.mem_cons_of_mem _ hp)

/-! ## The branch -/

/-- The statement that sets the PWM count of the level. -/
def isSetDC : Stmt → Bool
  | .setDC => true
  | _ => false

/-- The command with the level `level` has won: its count is set, playback is off, and no firing
changes that until a texture is accepted. -/
def MagnitudeWins (level : Byte) (b : Board) : Prop :=
  b.dev.oc3rs = dutyCount (b.dev.pr2 + 1) (levelDuty level) ∧ b.dev.tBuff.on = 0 ∧
    ∀ ls c, firmware.lts.Run ⟨[], b⟩ ls c → (∀ p, .call p ∈ ls → ¬ IsTexture p) → reads ls = []

/-- The branch up to the statement that sets the count: firings there leave no trace. -/
theorem magnitude_before (hf : d.tBuff.front = s.byte) (h1 : 1 ≤ n) (h5 : n ≤ 5)
    (hid : rx 0 = commandMag)
    (hrun : firmware.lts.Run ⟨[.callback n], ⟨d, rx⟩⟩ ls ⟨[], b'⟩) :
    ∃ pre b post, ls = pre ++ .main .setDC :: post ∧ (∀ l ∈ pre, l.isMain isSetDC = false) ∧
      Follows d.tBuff s (reads pre).length b.dev ∧ b.dev.pr2 = d.pr2 ∧
      b.dev.oc3rs = dutyCount (d.pr2 + 1) (levelDuty (rx 1)) ∧
      firmware.lts.Run ⟨[.clearT3IE, .on 0], b⟩ post ⟨[], b'⟩ := by
  have hcode : callbackCode rx n = [.tpadMag, .setDC, .clearT3IE, .on 0] := by
    simp only [callbackCode, show ¬ n < 1 by omega, show ¬ n > 5 by omega, hid, if_false, if_true,
      show commandMag ≠ commandFreq by decide]
  -- the tests of the callback
  obtain ⟨f₀, b₀, l₀, rfl, hf₀, hu₀, h₀⟩ := run_statement hrun
  obtain ⟨hfol₀, -⟩ := follows_firings (follows_zero hf) hf₀
  have hexp : Stmt.expand b₀.rx b₀.dev (.callback n) = [.tpadMag, .setDC, .clearT3IE, .on 0] := by
    rw [Stmt.expand, hu₀.rx, hcode]
  rw [hexp] at h₀
  -- the level is stored
  obtain ⟨f₁, b₁, l₁, rfl, hf₁, hu₁, h₁⟩ := run_statement h₀
  obtain ⟨hfol₁, -⟩ := follows_firings hfol₀ hf₁
  -- its count is set
  obtain ⟨f₂, b₂, l₂, rfl, hf₂, hu₂, h₂⟩ := run_statement h₁
  obtain ⟨hfol₂, -⟩ := follows_firings (b := ⟨Stmt.effect b₁.rx b₁.dev .tpadMag, b₁.rx⟩)
    (hfol₁.congr rfl rfl rfl rfl) hf₂
  have hpr2 : b₂.dev.pr2 = d.pr2 := hu₂.pr2.trans (hu₁.pr2.trans hu₀.pr2)
  have hrx : b₁.rx = rx := hu₁.rx.trans hu₀.rx
  have hlevel : b₂.dev.tpadMag = (rx 1).toNat :=
    hu₂.tpadMag.trans (congrArg (fun r : RecvBuffer => ((r 1).toNat : ℤ)) hrx)
  refine ⟨firings f₀ ++ .main (.callback n) :: (firings f₁ ++ .main .tpadMag :: firings f₂),
    ⟨Stmt.effect b₂.rx b₂.dev .setDC, b₂.rx⟩, l₂, by simp, ?_, ?_, hpr2, ?_, h₂⟩
  · intro l hl
    simp only [List.mem_append, List.mem_cons] at hl
    rcases hl with hl | rfl | hl | rfl | hl
    · exact isMain_of_mem_firings hl
    · rfl
    · exact isMain_of_mem_firings hl
    · rfl
    · exact isMain_of_mem_firings hl
  · simp only [reads_append, reads_main, reads_firings, List.length_append]
    rw [← Nat.add_assoc, ← Nat.zero_add f₀.length]
    exact hfol₂.congr rfl rfl rfl rfl
  · simp only [Stmt.effect, pwmSetDC, hpr2, hlevel, levelDuty, Int.cast_natCast]

/-- The branch after it: the last firing sets the count, and then nothing fires any more. -/
theorem magnitude_after {t : TextureBuff} {j : ℕ} (h : Follows t s j b.dev)
    (hrun : firmware.lts.Run ⟨[.clearT3IE, .on 0], b⟩ ls ⟨[], b'⟩) (hc : NoCall ls) :
    b'.dev.t3ie = false ∧ b'.dev.tBuff.on = 0 ∧ b'.dev.pr2 = b.dev.pr2 ∧
      ((reads ls = [] ∧ b'.dev.oc3rs = b.dev.oc3rs) ∨
        reads ls ≠ [] ∧ ∃ r, t.readAfter s (j + (reads ls).length - 1) = some r ∧
          b'.dev.oc3rs = dutyCount (b.dev.pr2 + 1) (levelDuty r.value)) := by
  -- the interrupt is disabled
  obtain ⟨f₀, b₀, l₀, rfl, hf₀, hu₀, h₀⟩ := run_statement hrun
  obtain ⟨-, hcount⟩ := follows_firings h hf₀
  -- nothing fires any more
  obtain ⟨f₁, b₁, l₁, rfl, hf₁, -, h₁⟩ := run_statement h₀
  obtain ⟨hnil, heq⟩ := run_disabled (b := ⟨Stmt.effect b₀.rx b₀.dev .clearT3IE, b₀.rx⟩) rfl hf₁
    (noCall_firings f₁)
  obtain ⟨-, rfl⟩ := Config.mk.inj heq
  obtain ⟨rfl, heq'⟩ := run_disabled (b := ⟨Stmt.effect b₀.rx
    (Stmt.effect b₀.rx b₀.dev .clearT3IE) (.on 0), b₀.rx⟩) rfl h₁ hc.right.tail.right.tail
  obtain ⟨-, rfl⟩ := Config.mk.inj heq'
  have hreads : reads (firings f₀ ++ .main .clearT3IE :: (firings f₁ ++ [.main (.on 0)]) : Trace) =
      f₀ := by
    rw [hnil]
    simp
  rw [hreads]
  exact ⟨rfl, rfl, hu₀.pr2, hcount⟩

/-- **When a magnitude command wins.** With the half `s` in front, the command of level `rx 1` wins
exactly when no firing comes after its count is set, or the last sample that is played has the same
count. -/
theorem magnitude_iff (hf : d.tBuff.front = s.byte) (h1 : 1 ≤ n) (h5 : n ≤ 5)
    (hid : rx 0 = commandMag)
    (hrun : firmware.lts.Run ⟨[.callback n], ⟨d, rx⟩⟩ ls ⟨[], b'⟩) (hc : NoCall ls) :
    MagnitudeWins (rx 1) b' ↔
      reads (after isSetDC ls) = [] ∨
        ∃ r, d.tBuff.readAfter s ((reads ls).length - 1) = some r ∧
          dutyCount (d.pr2 + 1) (levelDuty r.value) =
            dutyCount (d.pr2 + 1) (levelDuty (rx 1)) := by
  obtain ⟨pre, b, post, rfl, hpre, hfol, hpr2, hset, hpost⟩ :=
    magnitude_before hf h1 h5 hid hrun
  obtain ⟨hie, hon, hpr2', hcount⟩ := magnitude_after hfol hpost hc.right.tail
  have hlater : ∀ ls c, firmware.lts.Run ⟨[], b'⟩ ls c → (∀ p, .call p ∈ ls → ¬ IsTexture p) →
      reads ls = [] := fun ls c hr hp => silent_run hr ⟨hie, .inl (by simp)⟩ hp
  rw [MagnitudeWins, hpr2', hpr2, after_append hpre, after_main_of rfl, reads_append, reads_main,
    List.length_append]
  rcases hcount with ⟨hnil, hsame⟩ | ⟨hne, r, hr, hlast⟩
  · simp only [hnil, true_or, iff_true]
    exact ⟨hsame.trans hset, hon, hlater⟩
  · simp only [hne, false_or, hr, Option.some.injEq, exists_eq_left', hlast, hpr2]
    exact ⟨fun h => h.1, fun h => ⟨h, hon, hlater⟩⟩

/-- With a texture playing, level 0 is set and a firing plays the sample 9 before the interrupt is
disabled: its count of 20 stays. -/
theorem magnitude_loses :
    (playingFirst.t3ie = true ∧ playingFirst.tBuff.on = 1 ∧ playingFirst.tBuff.index = 0 ∧
      playingFirst.tBuff.Holds .buff1 [9, 8, 7, 6, 5]) ∧
    ∃ b, firmware.lts.Run
        ⟨[.callback 2], ⟨playingFirst, receive [commandMag, 0] firstTexture⟩⟩
        [.main (.callback 2), .main .tpadMag, .main .setDC, .isr (some ⟨.buff1, 0, 9⟩),
          .main .clearT3IE, .main (.on 0)] ⟨[], b⟩ ∧
      ¬ MagnitudeWins 0 b := by
  obtain ⟨-, hon, hie, hold, hk⟩ := playingFirst_holds
  refine ⟨⟨hie, hon, hk, hold⟩, (run_of_schedule (fun b => (b.dev.oc3rs, b.dev.pr2))
    [.main, .main, .main, .isr, .main, .main] (a := (20, 1193)) ?_).imp
    fun b h => ⟨h.1, fun hw => ?_⟩⟩
  · decide +kernel
  · obtain ⟨hcount, hpr2⟩ := Prod.mk.inj h.2
    have hset := hw.1
    rw [hcount, hpr2, dutyCount_level] at hset
    exact absurd hset (by decide)

/-- The same level with the firing before its count is set. -/
theorem magnitude_iff_wins :
    ∃ b, firmware.lts.Run
        ⟨[.callback 2], ⟨playingFirst, receive [commandMag, 0] firstTexture⟩⟩
        [.main (.callback 2), .isr (some ⟨.buff1, 0, 9⟩), .main .tpadMag, .main .setDC,
          .main .clearT3IE, .main (.on 0)] ⟨[], b⟩ ∧
      MagnitudeWins 0 b := by
  refine (run_of_schedule (fun _ => ()) [.main, .isr, .main, .main, .main, .main] (a := ()) ?_).imp
    fun b h => ⟨h.1, ?_⟩
  · decide +kernel
  · exact (magnitude_iff playingFirst_holds.1 (by decide) (by decide) (by decide) h.1
      (by simp [NoCall])).2 (.inl rfl)

end TPadFire.Firmware
