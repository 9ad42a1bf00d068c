import TPadFire.Firmware.Callback
import TPadFire.Foundations.Interrupt

/-!
# The handlers, statement by statement

`ADBCallback`, `handleTexture`, `pauseTimer3` and `resumeTimer3` as lists of atomic statements, in
source order, with `memmove` taken byte by byte. `Timer3ISR` may fire between any two of them while
its interrupt is enabled; `firmware` is the program with all its interleavings. The statements that
only test the message or the state expand to those of the branch they choose.

`exec_adbCallback` connects this to the handlers of `Callback`: without a firing the statements do
exactly what the handler does. So the firmware between interrupts is part of the interleavings
(`run_of_system`).
-/

namespace TPadFire.Firmware

open Interruptible

/-- The statements. -/
inductive Stmt
  /-- The tests of `ADBCallback` on the length and the identifier. -/
  | callback (dataLen : ℕ)
  /-- `incoming = intFromBytes(((BYTE*) data) + 1)` -/
  | incoming
  /-- `PR2 = (SYS_FREQ / incoming) - 1` -/
  | period
  /-- `TMR2 = 0` -/
  | clearTMR2
  /-- `tpadMAG = (int)*(((BYTE*) data) + 1)` -/
  | tpadMag
  /-- `PWM_Set_DC(tpadMAG / 255.0 * 50)` -/
  | setDC
  /-- `IEC0bits.T3IE = 0` -/
  | clearT3IE
  /-- `tBuff.On = v` -/
  | on (v : Byte)
  /-- `WriteCoreTimer(0)` -/
  | resetCoreTimer
  /-- The tests of `handleTexture` on `Front`. -/
  | testFront (rawLength : ℕ)
  /-- `Length0` or `Length1` is set, to `MAX_BUFFER_LENGTH` at most. -/
  | loadLength (s : Slot) (rawLength : ℕ)
  /-- `memmove(tBuff.Buff0, raw_data, tBuff.Length0)`, or the same for `Buff1` -/
  | memmove (s : Slot)
  /-- One byte of `memmove`. -/
  | copyByte (s : Slot) (i : Fin maxBufferLength)
  /-- `tBuff.Index = 0` -/
  | clearIndex
  /-- `tBuff.Front` is set to select the half. -/
  | front (s : Slot)
  /-- `if (tBuff.On == 0x0)` -/
  | testOn
  /-- `TMR3 = 0` -/
  | clearTMR3
  /-- `IEC0bits.T3IE = 1` -/
  | setT3IE
  deriving DecidableEq

/-- The branches of `ADBCallback`; `handleTexture` is called with `raw_length = data_len - 1`. -/
def callbackCode (data : RecvBuffer) (dataLen : ℕ) : List Stmt :=
  if dataLen < 1 then []
  else if dataLen > 5 then
    if data 0 = commandText then [.testFront (dataLen - 1)] else []
  else if data 0 = commandFreq then [.incoming, .period, .clearTMR2]
  else if data 0 = commandMag then [.tpadMag, .setDC, .clearT3IE, .on 0]
  else if data 0 = commandAlive then [.resetCoreTimer]
  else []

/-- A branch of `handleTexture`. -/
def loadCode (s : Slot) (rawLength : ℕ) : List Stmt :=
  [.loadLength s rawLength, .memmove s, .clearIndex, .front s]

/-- `handleTexture` after its tests on `Front`. -/
def textureCode (frontByte : Byte) (rawLength : ℕ) : List Stmt :=
  (if frontByte = 1 then loadCode .buff0 rawLength
    else if frontByte = 0 then loadCode .buff1 rawLength
    else []) ++ [.testOn]

/-- The bytes that `memmove` copies when the length of the half is `n`. -/
def copyCode (s : Slot) (n : ℕ) : List Stmt :=
  ((List.finRange maxBufferLength).take n).map (.copyByte s)

/-- What a statement does to the device. -/
def Stmt.effect (data : RecvBuffer) (d : Device) : Stmt → Device
  | .incoming => { d with incoming := intFromBytes (rawData data) }
  | .period => { d with pr2 := storePeriod (sysFreq.tdiv d.incoming - 1) }
  | .clearTMR2 => { d with tmr2 := 0 }
  | .tpadMag => { d with tpadMag := (data 1).toNat }
  | .setDC => pwmSetDC (d.tpadMag / 255 * 50) d
  | .clearT3IE => pauseTimer3 d
  | .on v => { d with tBuff := { d.tBuff with on := v } }
  | .resetCoreTimer => writeCoreTimer 0 d
  | .loadLength s n =>
    { d with tBuff :=
      { d.tBuff with length := Function.update d.tBuff.length s (Firmware.loadLength n) } }
  | .copyByte s i =>
    { d with tBuff :=
      { d.tBuff with
        buff := Function.update d.tBuff.buff s
          (Function.update (d.tBuff.buff s) i (rawData data (Fin.castLE maxBufferLength_le i))) } }
  | .clearIndex => { d with tBuff := { d.tBuff with index := 0 } }
  | .front s => { d with tBuff := { d.tBuff with front := s.byte } }
  | .clearTMR3 => { d with tmr3 := 0 }
  | .setT3IE => { d with t3ie := true }
  | .callback _ => d
  | .testFront _ => d
  | .memmove _ => d
  | .testOn => d

/-- What a statement expands to. -/
def Stmt.expand (data : RecvBuffer) (d : Device) : Stmt → List Stmt
  | .callback n => callbackCode data n
  | .testFront n => textureCode d.tBuff.front n
  | .memmove s => copyCode s (d.tBuff.length s).toNat
  | .testOn => if d.tBuff.on = 0 then [.on 1, .clearTMR3, .setT3IE] else []
  | _ => []

/-- One statement; a division by zero traps. -/
def Stmt.exec (i : Stmt) (b : Board) : Option (List Stmt × Board) :=
  if i = .period ∧ b.dev.incoming = 0 then none
  else some (i.expand b.rx b.dev, ⟨i.effect b.rx b.dev, b.rx⟩)

/-- The firmware, statement by statement. A request is a payload that fits in the receive buffer. -/
def firmware : Interruptible Board (List Byte) Stmt (Option Read) where
  call p b :=
    if p.length ≤ adbPacketMaxRecvDataBytes then
      some ([.callback p.length], ⟨b.dev, receive p b.rx⟩)
    else none
  exec := Stmt.exec
  enabled b := b.dev.t3ie
  isr b := (timer3ISR b.dev).map fun r => (r.1, ⟨r.2, b.rx⟩)

/-- The labels of a run of the firmware. -/
abbrev Trace := List (Label (List Byte) Stmt (Option Read))

theorem firmware_call {p : List Byte} (h : p.length ≤ adbPacketMaxRecvDataBytes) (b : Board) :
    firmware.call p b = some ([.callback p.length], ⟨b.dev, receive p b.rx⟩) :=
  if_pos h

theorem firmware_isr {b b' : Board} {r : Option Read} (h : firmware.isr b = some (r, b')) :
    ∃ d', timer3ISR b.dev = some (r, d') ∧ b' = ⟨d', b.rx⟩ := by
  obtain ⟨⟨r', d'⟩, hisr, heq⟩ := Option.map_eq_some_iff.1 h
  obtain ⟨rfl, rfl⟩ := Prod.mk.inj heq
  exact ⟨d', hisr, rfl⟩

theorem exec_some {i : Stmt} {js : List Stmt} {b b' : Board}
    (h : firmware.exec i b = some (js, b')) :
    js = i.expand b.rx b.dev ∧ b' = ⟨i.effect b.rx b.dev, b.rx⟩ := by
  simp only [firmware, Stmt.exec] at h
  split_ifs at h
  obtain ⟨rfl, rfl⟩ := Prod.mk.inj (Option.some.inj h)
  exact ⟨rfl, rfl⟩

/-- `handleTexture` fills the half that is not in front and switches to it. -/
theorem textureCode_of_front {v : Byte} {s : Slot} (h : v = s.byte) (n : ℕ) :
    textureCode v n = loadCode s.other n ++ [.testOn] := by
  subst h
  cases s <;> rfl

/-- What firings leave alone: everything but the PWM count, the flag and `Index`. -/
structure Untouched (b b' : Board) : Prop where
  buff : b'.dev.tBuff.buff = b.dev.tBuff.buff
  length : b'.dev.tBuff.length = b.dev.tBuff.length
  front : b'.dev.tBuff.front = b.dev.tBuff.front
  on : b'.dev.tBuff.on = b.dev.tBuff.on
  t3ie : b'.dev.t3ie = b.dev.t3ie
  pr2 : b'.dev.pr2 = b.dev.pr2
  tpadMag : b'.dev.tpadMag = b.dev.tpadMag
  rx : b'.rx = b.rx

theorem firings_untouched {b b' : Board} {rs : List (Option Read)} {is js : List Stmt}
    (h : firmware.lts.Run ⟨is, b⟩ (firings rs) ⟨js, b'⟩) : Untouched b b' := by
  refine h.invariant_mem (I := fun c => Untouched b c.mem) ?_
    ⟨rfl, rfl, rfl, rfl, rfl, rfl, rfl, rfl⟩
  rintro c l c' hl hc hstep
  obtain ⟨r, -, rfl⟩ := List.mem_map.1 hl
  cases hstep with
  | isr he hisr =>
    obtain ⟨d', hd', rfl⟩ := firmware_isr hisr
    obtain ⟨o, k, rfl⟩ := timer3ISR_frame hd'
    exact ⟨hc.buff, hc.length, hc.front, hc.on, hc.t3ie, hc.pr2, hc.tpadMag, hc.rx⟩

/-- The next statement of a run: firings come before it, which leave almost everything alone. -/
theorem run_statement {b b' : Board} {i : Stmt} {is : List Stmt} {ls : Trace}
    (h : firmware.lts.Run ⟨i :: is, b⟩ ls ⟨[], b'⟩) :
    ∃ rs b₁ ls', ls = firings rs ++ .main i :: ls' ∧
      firmware.lts.Run ⟨[], b⟩ (firings rs) ⟨[], b₁⟩ ∧ Untouched b b₁ ∧
      firmware.lts.Run ⟨i.expand b₁.rx b₁.dev ++ is, ⟨i.effect b₁.rx b₁.dev, b₁.rx⟩⟩ ls'
        ⟨[], b'⟩ := by
  obtain ⟨rs, b₁, js, b₂, ls', rfl, hrs, hexec, hrest⟩ := run_cons_code h
  obtain ⟨rfl, rfl⟩ := exec_some hexec
  exact ⟨rs, b₁, ls', rfl, hrs, firings_untouched hrs, hrest⟩

/-! ## Execution without interrupts -/

section Exec

variable {rx : RecvBuffer} {d : Device} {b : Board} {is : List Stmt}

theorem exec_eq {i : Stmt} (h : i ≠ .period) :
    i.exec ⟨d, rx⟩ = some (i.expand rx d, ⟨i.effect rx d, rx⟩) := by
  simp only [Stmt.exec, h, false_and, if_false]

theorem exec_step {i : Stmt} (h : i ≠ .period)
    (hr : firmware.Exec (i.expand rx d ++ is) ⟨i.effect rx d, rx⟩ b) :
    firmware.Exec (i :: is) ⟨d, rx⟩ b :=
  .cons (exec_eq h) hr

/-- Copying byte by byte. -/
theorem exec_copy (s : Slot) (is : List (Fin maxBufferLength)) (d : Device) :
    firmware.Exec (is.map (.copyByte s)) ⟨d, rx⟩
      ⟨{ d with tBuff :=
          { d.tBuff with
            buff := Function.update d.tBuff.buff s
              (Block.storeAll maxBufferLength_le (rawData rx) (d.tBuff.buff s) is) } }, rx⟩ := by
  induction is generalizing d with
  | nil =>
    have hsame : Function.update d.tBuff.buff s
        (Block.storeAll maxBufferLength_le (rawData rx) (d.tBuff.buff s) []) = d.tBuff.buff :=
      Function.update_eq_self s _
    rw [hsame]
    exact .nil _
  | cons i is ih =>
    refine exec_step (by simp) ?_
    have hrest := ih (Stmt.effect rx d (.copyByte s i))
    simp only [Stmt.effect, Function.update_self, Function.update_idem] at hrest
    simp only [Block.storeAll_cons]
    exact hrest

theorem exec_load (s : Slot) (n : ℕ) (d : Device) :
    firmware.Exec (loadCode s n) ⟨d, rx⟩ ⟨loadTexture s (rawData rx) n d, rx⟩ := by
  refine exec_step (by simp) (exec_step (by simp) ?_)
  refine (exec_copy s _ _).append (exec_step (by simp) (exec_step (by simp) ?_))
  have hcopy := Block.storeAll_take_finRange (h := maxBufferLength_le)
    (rawData rx) (d.tBuff.buff s) (loadLength n).toNat
  simp only [Stmt.effect, Stmt.expand, loadTexture, Function.update_self, hcopy]
  exact .nil _

theorem exec_testOn (d : Device) :
    firmware.Exec [.testOn] ⟨d, rx⟩ ⟨startPlayback d, rx⟩ := by
  refine exec_step (by simp) ?_
  by_cases h : d.tBuff.on = 0
  · simp only [Stmt.expand, startPlayback, h, if_true]
    exact exec_step (by simp) (exec_step (by simp) (exec_step (by simp) (.nil _)))
  · simp only [Stmt.expand, startPlayback, h, if_false]
    exact .nil _

/-- Without a firing the statements of `handleTexture` do what it does. -/
theorem exec_handleTexture (n : ℕ) (d : Device) :
    firmware.Exec [.testFront n] ⟨d, rx⟩ ⟨handleTexture (rawData rx) n d, rx⟩ := by
  refine exec_step (by simp) ?_
  simp only [Stmt.expand, Stmt.effect, textureCode, handleTexture, List.append_nil]
  by_cases h1 : d.tBuff.front = 1
  · simp only [h1, if_true]
    exact (exec_load .buff0 n d).append (exec_testOn _)
  · by_cases h0 : d.tBuff.front = 0
    · simp only [h0, if_true, show ¬ (0 : Byte) = 1 by decide, if_false]
      exact (exec_load .buff1 n d).append (exec_testOn _)
    · simp only [h1, h0, if_false]
      exact exec_testOn d

/-- **Without a firing the statements do what the handler does.** -/
theorem exec_adbCallback {n : ℕ} {d' : Device} (h : adbCallback rx n d = .returned d') :
    firmware.Exec [.callback n] ⟨d, rx⟩ ⟨d', rx⟩ := by
  refine exec_step (by simp) ?_
  simp only [Stmt.expand, Stmt.effect, callbackCode, List.append_nil]
  rw [adbCallback] at h
  split_ifs at h ⊢ with h1 h2 h3 h4 h5 h6
  · obtain rfl := Outcome.returned.inj h
    exact .nil _
  · obtain rfl := Outcome.returned.inj h
    exact exec_handleTexture _ d
  · obtain rfl := Outcome.returned.inj h
    exact .nil _
  · obtain ⟨z, hz⟩ : ∃ z, intFromBytes (rawData rx) = z := ⟨_, rfl⟩
    have hz0 : z ≠ 0 := by
      rintro rfl
      rw [handleFreq_trapped hz] at h
      cases h
    rw [handleFreq_returned hz hz0] at h
    obtain rfl := Outcome.returned.inj h
    refine exec_step (by simp) ?_
    simp only [Stmt.effect, hz]
    exact .cons (if_neg fun hc => hz0 hc.2) (exec_step (by simp) (.nil _))
  · obtain rfl := Outcome.returned.inj h
    exact exec_step (by simp) (exec_step (by simp) (exec_step (by simp)
      (exec_step (by simp) (.nil _))))
  · obtain rfl := Outcome.returned.inj h
    exact exec_step (by simp) (.nil _)
  · obtain rfl := Outcome.returned.inj h
    exact .nil _

/-- A payload handled without a firing. -/
theorem run_payload {p : List Byte} (hlen : p.length ≤ adbPacketMaxRecvDataBytes) (b : Board)
    {d' : Device} (h : adbCallback (receive p b.rx) p.length b.dev = .returned d') :
    ∃ ms : List Stmt, firmware.lts.Run ⟨[], b⟩ (.call p :: ms.map .main)
      ⟨[], ⟨d', receive p b.rx⟩⟩ := by
  obtain ⟨ms, hms⟩ := (exec_adbCallback h).run
  exact ⟨ms, .cons (.call (firmware_call hlen b)) hms⟩

/-- **The firmware between interrupts is part of the interleavings**: a run of events is a run of
statements in which the service routine fires only between two calls of the handler. -/
theorem run_of_system {es : List Event} {b b' : Board} (h : system.Run b es b') :
    ∃ ls, firmware.lts.Run ⟨[], b⟩ ls ⟨[], b'⟩ := by
  induction h with
  | nil b => exact ⟨[], .nil _⟩
  | @cons b b₁ b₂ e es hstep _ ih =>
    obtain ⟨ls, hls⟩ := ih
    cases hstep with
    | payload hlen h =>
      obtain ⟨ms, hms⟩ := run_payload hlen b h
      exact ⟨_, hms.append hls⟩
    | @tick r d he h =>
      have hisr : firmware.isr b = some (r, ⟨d, b.rx⟩) := by
        simp only [firmware, h, Option.map_some]
      exact ⟨_, .cons (.isr he hisr) hls⟩

end Exec

end TPadFire.Firmware
