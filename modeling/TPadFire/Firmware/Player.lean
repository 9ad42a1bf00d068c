import Mathlib.Data.Nat.Digits.Defs
import TPadFire.Firmware.Callback

/-!
# The texture player

What the double buffer is for, without the buffers: a `Player` is static or plays a list of samples
from a position, round and round. Payloads start a texture, stop playback with a level, or change
the period of the PWM; a tick plays a sample.

`Represents` relates a device to a player: the half of the buffer that `Front` selects holds the
samples, `Index` is the position, and playback is on exactly while the interrupt of Timer3 is
enabled. `player_simulation` is the refinement: every run of the firmware is a run of the player,
from related states to related states, and after it no admissible payload traps and no tick reads
outside the buffer.
-/

namespace TPadFire.Firmware

/-! ## The abstract player -/

/-- What the player is doing; a position lies within the samples. -/
inductive Mode
  | static
  | playing (samples : List Byte) (pos : Fin samples.length)

/-- The player: the period register, the PWM count and the mode. -/
structure Player where
  pr2 : ℕ
  count : ℤ
  mode : Mode

namespace Player

/-- The 32-bit integer that bytes, the lowest first, stand for. -/
def valueOf (bytes : List Byte) : ℤ :=
  signed 32 (Nat.ofDigits 256 (bytes.map UInt8.toNat) : ℕ)

/-- Play samples from the first; there is nothing to play if there are none. -/
def start (samples : List Byte) (a : Player) : Player :=
  if h : 0 < samples.length then { a with mode := .playing samples ⟨0, h⟩ } else a

/-- Stop at a level. -/
def hold (level : Byte) (a : Player) : Player :=
  { a with mode := .static, count := dutyCount (a.pr2 + 1) (levelDuty level) }

/-- Change the period to that of a frequency. -/
def retune (freq : ℤ) (a : Player) : Player := { a with pr2 := (sysFreq / freq - 1).toNat }

/-- A payload of an identifier and what follows it. -/
def accept (id : Byte) (rest : List Byte) (a : Player) : Player :=
  if rest.length ≥ 5 then
    if id = commandText then a.start (samples rest) else a
  else if id = commandMag then
    match rest with
    | level :: _ => a.hold level
    | [] => a
  else if id = commandFreq then a.retune (valueOf rest)
  else a

/-- One event; a static player does not tick. -/
def next (a : Player) : Event → Option Player
  | .payload [] => some a
  | .payload (id :: rest) => some (a.accept id rest)
  | .tick =>
    match a.mode with
    | .static => none
    | .playing samples pos =>
      some { a with
        count := dutyCount (a.pr2 + 1) (levelDuty samples[pos])
        mode := .playing samples ⟨(pos + 1) % samples.length, Nat.mod_lt _ pos.pos⟩ }

/-- The player as a system of events. -/
def system : Lts Player Event := ⟨fun a e b => a.next e = some b⟩

theorem next_tick {a : Player} {t : List Byte} {k : Fin t.length} (h : a.mode = .playing t k) :
    a.next .tick = some { a with
      count := dutyCount (a.pr2 + 1) (levelDuty t[k])
      mode := .playing t ⟨(k + 1) % t.length, Nat.mod_lt _ k.pos⟩ } := by
  simp only [next, h]

/-- The player at start. -/
def init : Player := ⟨1193, 10, .static⟩

end Player

/-- The payloads of the player: a magnitude has its level, and a frequency four bytes for a value
whose period fits in 16 bits. -/
def Admissible (_ : Board) : Event → Prop
  | .payload (id :: rest) =>
    rest.length ≤ 4 →
      (id = commandMag → 1 ≤ rest.length) ∧
      (id = commandFreq → rest.length = 4 ∧ 0 < Player.valueOf rest ∧
        1 ≤ sysFreq / Player.valueOf rest ∧ sysFreq / Player.valueOf rest ≤ 65536)
  | _ => True

/-! ## Playing -/

/-- The device plays `l` and is at position `k`. -/
def Plays (d : Device) (l : List Byte) (k : ℕ) : Prop :=
  d.tBuff.on = 1 ∧ d.t3ie = true ∧ d.tBuff.index = k ∧
    ∃ s : Slot, d.tBuff.front = s.byte ∧ d.tBuff.Holds s l

/-- **A tick plays the sample at the position** and steps it, round and round. -/
theorem timer3ISR_of_holds {d : Device} {s : Slot} {l : List Byte} {k : ℕ}
    (hf : d.tBuff.front = s.byte) (h : d.tBuff.Holds s l) (hk : d.tBuff.index = k)
    (hlt : k < l.length) :
    timer3ISR d = some (some ⟨s, k, l[k]⟩,
      { d with
        oc3rs := dutyCount (d.pr2 + 1) (levelDuty l[k])
        t3if := false
        tBuff := { d.tBuff with index := ((k + 1) % l.length : ℕ) } }) := by
  have hsample : d.tBuff.sample? s = some l[k] := by
    rw [TextureBuff.sample?, hk, h.cell hlt]
  rw [timer3ISR_of_sample hf hsample, TextureBuff.nextIndex, h.length, hk, stepIndex_natCast hlt]

/-- **Loading a texture** puts its first 1000 samples in a half. -/
theorem loadTexture_holds (d : Device) (s : Slot) (raw : RawData) (n : ℕ) :
    (loadTexture s raw n d).tBuff.Holds s (raw.contents (min n maxBufferLength)) := by
  have hlen : (raw.contents (min n maxBufferLength)).length = min n maxBufferLength := by
    rw [Block.length_contents, maxBufferLength]
    omega
  refine ⟨?_, by omega, ?_⟩
  · simp only [loadTexture, Function.update_self, hlen, loadLength_eq]
  · simp only [hlen, loadTexture, Function.update_self, loadLength_eq]
    exact Block.contents_memmove _ _ (by omega)

theorem storePeriod_tdiv {n : ℤ} (h1 : 1 ≤ sysFreq / n) (h : sysFreq / n ≤ 65536) :
    storePeriod (sysFreq.tdiv n - 1) = (sysFreq / n - 1).toNat := by
  rw [Int.tdiv_eq_ediv_of_nonneg (by decide)]
  have hstore := storePeriod_pred h1 h
  omega

/-! ## The refinement -/

/-- The device is in the mode of the player. -/
def InMode (d : Device) : Mode → Prop
  | .static => d.tBuff.on = 0 ∧ d.t3ie = false ∧ ∃ s : Slot, d.tBuff.front = s.byte
  | .playing t k => Plays d t k

/-- The device represents the player. -/
structure Represents (d : Device) (a : Player) : Prop where
  pr2 : d.pr2 = a.pr2
  count : d.oc3rs = a.count
  mode : InMode d a.mode

theorem represents_boot : Represents boot Player.init :=
  ⟨boot_pr2, boot_oc3rs, rfl, rfl, .buff0, rfl⟩

theorem InMode.front {d : Device} {m : Mode} (h : InMode d m) :
    ∃ s : Slot, d.tBuff.front = s.byte := by
  cases m with
  | static => exact h.2.2
  | playing t k => exact h.2.2.2.imp fun s hs => hs.1

/-- The interrupt is enabled exactly while the player plays. -/
theorem InMode.enabled_iff {d : Device} {m : Mode} (h : InMode d m) :
    d.t3ie = true ↔ ∃ t k, m = .playing t k := by
  cases m with
  | static => simp [h.2.1]
  | playing t k => simp [h.2.1]

/-- A mode does not depend on the PWM, the timers' counts or the globals. -/
theorem InMode.congr {d d' : Device} {m : Mode} (h : InMode d m) (ht : d'.tBuff = d.tBuff)
    (he : d'.t3ie = d.t3ie) : InMode d' m := by
  cases m with
  | static => exact ⟨by rw [ht, h.1], by rw [he, h.2.1], by rw [ht]; exact h.2.2⟩
  | playing t k =>
    obtain ⟨h1, h2, h3, s, hf, hs⟩ := h
    exact ⟨by rw [ht, h1], by rw [he, h2], by rw [ht, h3], s, by rw [ht, hf], by rwa [ht]⟩

/-- Playback is off or running. -/
theorem InMode.on {d : Device} {m : Mode} (h : InMode d m) :
    d.tBuff.on = 0 ∨ (d.tBuff.on = 1 ∧ d.t3ie = true) := by
  cases m with
  | static => exact .inl h.1
  | playing t k => exact .inr ⟨h.1, h.2.1⟩

/-- **A texture message starts the texture**, whether or not one is playing. -/
theorem handleTexture_plays {d : Device} {s : Slot} (hf : d.tBuff.front = s.byte)
    (hon : d.tBuff.on = 0 ∨ (d.tBuff.on = 1 ∧ d.t3ie = true)) (raw : RawData) (n : ℕ) :
    Plays (handleTexture raw n d) (raw.contents (min n maxBufferLength)) 0 := by
  rw [handleTexture_other hf]
  have hload := loadTexture_holds d s.other raw n
  rcases hon with hoff | ⟨hon, hie⟩
  · have honoff : (loadTexture s.other raw n d).tBuff.on = 0 := hoff
    rw [startPlayback, if_pos honoff]
    exact ⟨rfl, rfl, rfl, s.other, rfl, hload.congr rfl rfl⟩
  · have honoff : ¬ (loadTexture s.other raw n d).tBuff.on = 0 := by
      rw [show (loadTexture s.other raw n d).tBuff.on = 1 from hon]
      decide
    rw [startPlayback, if_neg honoff]
    exact ⟨hon, hie, rfl, s.other, rfl, hload⟩

theorem intFromBytes_receive (id : Byte) {rest : List Byte} (rx : RecvBuffer)
    (h : rest.length = 4) :
    intFromBytes (rawData (receive (id :: rest) rx)) = Player.valueOf rest := by
  match rest, h with
  | [b0, b1, b2, b3], _ =>
    rw [intFromBytes, rawData_receive (by simp), rawData_receive (by simp),
      rawData_receive (by simp), rawData_receive (by simp), Player.valueOf]
    congr 1
    simp only [List.map_cons, List.map_nil, Nat.ofDigits_cons, Nat.ofDigits_nil]
    change (b0.toNat + 2 ^ 8 * b1.toNat + 2 ^ 16 * b2.toNat + 2 ^ 24 * b3.toNat : ℤ) = _
    push_cast
    ring

/-- **A payload**: the handler returns, in a device that represents what the player does. -/
theorem accept_represents {b : Board} {a : Player} (h : Represents b.dev a) {id : Byte}
    {rest : List Byte} (hlen : rest.length < adbPacketMaxRecvDataBytes)
    (hadm : Admissible b (.payload (id :: rest))) :
    ∃ d, adbCallback (receive (id :: rest) b.rx) (rest.length + 1) b.dev = .returned d ∧
      Represents d (a.accept id rest) := by
  by_cases hlong : rest.length ≥ 5
  · by_cases htext : id = commandText
    · subst htext
      refine ⟨_, callback_text hlong, ?_⟩
      obtain ⟨s, hs⟩ := h.mode.front
      have hplays :=
        handleTexture_plays hs h.mode.on (rawData (receive (commandText :: rest) b.rx)) rest.length
      rw [contents_samples hlen] at hplays
      obtain ⟨t, m, e, hframe⟩ :=
        handleTexture_frame (rawData (receive (commandText :: rest) b.rx)) rest.length b.dev
      have hpos : 0 < (samples rest).length := by
        rw [length_samples, maxBufferLength]
        omega
      simp only [Player.accept, hlong, if_true, Player.start, hpos, dif_pos]
      exact ⟨by rw [hframe]; exact h.pr2, by rw [hframe]; exact h.count, hplays⟩
    · refine ⟨_, callback_dropped htext hlong, ?_⟩
      simp only [Player.accept, hlong, htext, if_true, if_false]
      exact h
  · obtain ⟨hmag1, hfreq4⟩ := hadm (by omega)
    by_cases hmag : id = commandMag
    · obtain ⟨level, tail, rfl⟩ := List.exists_cons_of_length_pos (hmag1 hmag)
      subst hmag
      rw [List.length_cons] at hlong
      refine ⟨_, callback_mag level tail (by omega), ?_⟩
      simp only [Player.accept, List.length_cons, hlong, if_false, if_true, Player.hold]
      exact ⟨h.pr2, by simp only [h.pr2], rfl, rfl, h.mode.front⟩
    · by_cases hfreq : id = commandFreq
      · obtain ⟨h4, hpos, h1, hmax⟩ := hfreq4 hfreq
        subst hfreq
        have hval := intFromBytes_receive commandFreq b.rx h4
        refine ⟨_, (callback_freq h4).trans (handleFreq_returned hval hpos.ne'), ?_⟩
        simp only [Player.accept, hlong, hmag, if_false, if_true, Player.retune]
        refine ⟨?_, h.count, h.mode.congr rfl rfl⟩
        rw [storePeriod_tdiv h1 hmax]
      · by_cases halive : id = commandAlive
        · subst halive
          refine ⟨_, callback_alive rest (by omega), ?_⟩
          simp only [Player.accept, hlong, hmag, hfreq, if_false]
          exact ⟨h.pr2, h.count, h.mode.congr rfl rfl⟩
        · refine ⟨_, adbCallback_ignored (by omega) ?_, ?_⟩
          · rintro ⟨-, -, hc⟩
            rw [receive_zero] at hc
            exact hc.elim hfreq fun hc => hc.elim hmag halive
          · simp only [Player.accept, hlong, hmag, hfreq, if_false]
            exact h

/-- **A tick**: a device that plays a texture plays the sample that the player plays. -/
theorem tick_represents {d : Device} {a : Player} (h : Represents d a) (he : d.t3ie = true) :
    ∃ r d' a', timer3ISR d = some (r, d') ∧ a.next .tick = some a' ∧ Represents d' a' := by
  obtain ⟨t, k, hm⟩ := h.mode.enabled_iff.1 he
  have hplays : Plays d t k := by
    have hmode := h.mode
    rwa [hm] at hmode
  obtain ⟨hon, hie, hindex, s, hf, hs⟩ := hplays
  refine ⟨_, _, _, timer3ISR_of_holds hf hs hindex k.isLt, Player.next_tick hm, h.pr2, ?_, ?_⟩
  · simp only [h.pr2, Fin.getElem_fin]
  · exact ⟨hon, hie, rfl, s, hf, hs.congr rfl rfl⟩

theorem payload_represents {b : Board} {a : Player} (h : Represents b.dev a) {p : List Byte}
    (hlen : p.length ≤ adbPacketMaxRecvDataBytes) (hadm : Admissible b (.payload p)) :
    ∃ d a', adbCallback (receive p b.rx) p.length b.dev = .returned d ∧
      a.next (.payload p) = some a' ∧ Represents d a' := by
  cases p with
  | nil => exact ⟨b.dev, a, rfl, rfl, h⟩
  | cons id rest =>
    obtain ⟨d, hd, hR⟩ := accept_represents h hlen hadm
    exact ⟨d, _, hd, rfl, hR⟩

/-- The firmware with the payloads of the player. -/
def playerSystem : Lts Board Event := system.restrict Admissible

theorem represents_simulation :
    Lts.Simulation playerSystem Player.system fun b a => Represents b.dev a := by
  rintro b a e b' hR ⟨hstep, hadm⟩
  cases hstep with
  | payload hlen h =>
    obtain ⟨d, a', hd, ha', hR'⟩ := payload_represents hR hlen hadm
    obtain rfl := Outcome.returned.inj (hd.symm.trans h)
    exact ⟨a', ha', hR'⟩
  | tick he h =>
    obtain ⟨r, d, a', hd, ha', hR'⟩ := tick_represents hR he
    obtain ⟨-, rfl⟩ := Prod.mk.inj (Option.some.inj (hd.symm.trans h))
    exact ⟨a', ha', hR'⟩

/-- **The texture player refines the abstract machine.** A run of the firmware is a run of the
player from its initial state, and the last states are related. There the next payload is handled
and the next tick reads a sample: neither can trap. -/
theorem player_simulation {es : List Event} {b : Board} (h : playerSystem.Run bootBoard es b) :
    ∃ a, Player.system.Run Player.init es a ∧ Represents b.dev a ∧
      (∀ p, p.length ≤ adbPacketMaxRecvDataBytes → Admissible b (.payload p) →
        ∃ b', playerSystem.step b (.payload p) b') ∧
      (b.dev.t3ie = true → ∃ b', playerSystem.step b .tick b') := by
  obtain ⟨a, ha, hR⟩ := represents_simulation.run h represents_boot
  refine ⟨a, ha, hR, fun p hlen hadm => ?_, fun he => ?_⟩
  · obtain ⟨d, -, hd, -, -⟩ := payload_represents hR hlen hadm
    exact ⟨_, .payload hlen hd, hadm⟩
  · obtain ⟨r, d, -, hd, -, -⟩ := tick_represents hR he
    exact ⟨_, .tick he hd, trivial⟩

/-- The run in which a texture of five samples is sent and its first sample is played. -/
theorem player_simulation_texture :
    ∃ b a, Player.system.Run Player.init
        [.payload [commandText, 9, 8, 7, 6, 5], .tick] a ∧ Represents b.dev a ∧
      playerSystem.Run bootBoard [.payload [commandText, 9, 8, 7, 6, 5], .tick] b := by
  have hcall : adbCallback (receive [commandText, 9, 8, 7, 6, 5] bootBoard.rx) 6 boot = _ :=
    adbCallback_text (by decide) (by decide)
  have hload : playerSystem.Run bootBoard [.payload [commandText, 9, 8, 7, 6, 5]] _ :=
    .cons ⟨.payload (by decide) hcall, fun h => absurd h (by decide)⟩ (.nil _)
  obtain ⟨b, htick⟩ := (player_simulation hload).choose_spec.2.2.2 rfl
  have hrun := hload.append (.cons htick (.nil b))
  obtain ⟨a, ha, hR, -⟩ := player_simulation hrun
  exact ⟨b, a, ha, hR, hrun⟩

end TPadFire.Firmware
