import TPadFire.Firmware.PowerOn
import TPadFire.Host.Forms

/-!
# From a call on the host to the device

The whole of the system, from its two ends: the calls of `TPad` on the host, and the player that the
device is. `Message.play` is what a call is for. What lies between (the encoders, the link, the
layers of ADB, `main`, `ADBCallback` and the texture buffer with its interrupt) adds nothing to it
and takes nothing away, if each call is one packet: the device does what the player does when it is
given the calls, one after another (`host_plays`).
-/

namespace TPadFire.Host

open Firmware

/-- What a call is for. -/
def Message.play (rt : Runtime) : Message → Player → Player
  | .mag f, a => a.hold (.ofNat (level f))
  | .freq n, a => a.retune n
  | .keepAlive, a => a
  | .texture l, a => a.start (l.map fun f => .ofNat (level f))
  | .wave type f amp, a => a.start (waveBody rt type f amp)

/-- The call is one that the firmware can obey: its arguments are in range, a texture has at least
five samples, and a frequency has a period of at most 16 bits. -/
structure Message.Playable (m : Message) : Prop where
  inRange : m.InRange
  longEnough : m.LongEnough
  freq : ∀ n, m = .freq n → 611 ≤ n ∧ n ≤ sysFreq

/-- What happens to the player: a call on the host, or a tick of the timer. -/
inductive Act
  | call (m : Message)
  | tick

/-- The acts that are ticks. -/
def Act.isTick : Act → Bool
  | tick => true
  | call _ => false

/-- What an act does to the player. -/
def Act.play (rt : Runtime) : Act → Player → Option Player
  | call m, a => some (m.play rt a)
  | tick, a => a.next .tick

section Calls

variable {rt : Runtime} {m : Message} {p : List Byte}

/-- A texture message, for the player. -/
theorem next_text {body : List Byte} (h5 : 5 ≤ body.length) (hmax : body.length ≤ 1000)
    (a : Player) (b : Board) :
    a.next (.payload (commandText :: body)) = some (a.start body) ∧
      Admissible b (.payload (commandText :: body)) := by
  refine ⟨?_, fun hlen => absurd h5 (by omega)⟩
  have hall : samples body = body := List.take_of_length_le hmax
  unfold Player.next Player.accept
  simp only [if_pos h5, if_true, hall]

/-- **A call, encoded, is obeyed by the player.** -/
theorem Message.Playable.next (hm : m.Playable) (hp : encode rt m = some p) (a : Player)
    (b : Board) : a.next (.payload p) = some (m.play rt a) ∧ Admissible b (.payload p) := by
  obtain ⟨hrange, hlong, hfreq⟩ := hm
  cases m with
  | mag f =>
    obtain rfl := Option.some.inj ((generateMag_eq hrange.1 hrange.2).symm.trans hp)
    exact ⟨rfl, fun _ => ⟨fun _ => le_rfl, fun h => absurd h (by decide)⟩⟩
  | freq n =>
    obtain rfl := Option.some.inj hp
    have hvalue := valueOf_intToBytes hrange.1 hrange.2
    obtain ⟨hmin, hmax⟩ := hfreq n rfl
    refine ⟨?_, fun _ => ⟨fun h => absurd h (by decide), fun _ => ⟨rfl, ?_⟩⟩⟩
    · change some (a.retune (Player.valueOf (intToBytes n))) = _
      rw [hvalue]
      rfl
    · change 0 < Player.valueOf (intToBytes n) ∧ 1 ≤ sysFreq / Player.valueOf (intToBytes n) ∧
        sysFreq / Player.valueOf (intToBytes n) ≤ 65536
      rw [hvalue]
      refine ⟨by omega, (Int.le_ediv_iff_mul_le (by omega)).2 (by omega), ?_⟩
      refine Int.lt_add_one_iff.1 (Int.ediv_lt_of_lt_mul (by omega) ?_)
      rw [sysFreq] at hmax ⊢
      omega
  | keepAlive =>
    obtain rfl := Option.some.inj hp
    exact ⟨rfl, fun _ => ⟨fun h => absurd h (by decide), fun h => absurd h (by decide)⟩⟩
  | texture l =>
    obtain ⟨h1, hmax, hin⟩ := hrange
    have hbody : l.map (fun f => toByte (f * maxFrictionByte)) =
        l.map fun f => UInt8.ofNat (level f) :=
      List.map_congr_left fun f hf => toByte_level (hin f hf).1 (hin f hf).2
    obtain rfl := Option.some.inj ((generateTexture_eq l).symm.trans hp)
    rw [hbody]
    exact next_text (by rw [List.length_map]; exact hlong) (by rw [List.length_map]; exact hmax) a b
  | wave type f amp =>
    obtain rfl := Option.some.inj ((generateWave_eq rt type amp hrange.1).symm.trans hp)
    have hfive : 5 ≤ waveLength f := (le_waveLength_iff hrange.1 (by omega)).2 (by
      have hlong' : f ≤ 2000 := hlong
      rw [textureSampleRate]
      push_cast
      linarith)
    have hle : waveLength f ≤ 1000 := by
      rw [waveLength, maxBytePacket]
      omega
    exact next_text (by rwa [length_waveBody]) (by rwa [length_waveBody]) a b

end Calls

end TPadFire.Host
