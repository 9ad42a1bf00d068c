import TPadFire.Firmware.Feed
import TPadFire.Host.RoundTrip

/-!
# The messages of the host, as bytes

A message of `TPad` that the firmware can take has one of four forms (`emitted_iff`): a magnitude
has one byte for its level and a frequency four for its value, a keep-alive message is one byte, and
a texture has 5 to 1000 samples. Every byte of these can be any.
-/

namespace TPadFire.Host

open Firmware

/-- The bytes of a message of the host, a texture having at least five samples. -/
def Emitted (p : List Byte) : Prop :=
  ∃ (rt : Runtime) (m : Message), m.InRange ∧ m.LongEnough ∧ encode rt m = some p

/-- The forms of a message. -/
inductive Form : List Byte → Prop
  | mag (b : Byte) : Form [commandMag, b]
  | freq {v : List Byte} (h : v.length = 4) : Form (commandFreq :: v)
  | alive : Form [commandAlive]
  | text {body : List Byte} (h5 : 5 ≤ body.length) (hmax : body.length ≤ 1000) :
      Form (commandText :: body)

/-- The friction of a level. -/
def friction (b : Byte) : ℚ := b.toNat / 255

theorem friction_mem (b : Byte) : 0 ≤ friction b ∧ friction b ≤ 1 := by
  have hb : (b.toNat : ℚ) ≤ 255 := by exact_mod_cast Nat.le_of_lt_succ b.toNat_lt
  rw [friction]
  exact ⟨by positivity, by linarith⟩

theorem level_friction (b : Byte) : UInt8.ofNat (level (friction b)) = b := by
  have hlevel : (255 : ℚ) * friction b = (b.toNat : ℤ) := by
    rw [friction]
    push_cast
    ring
  rw [level, hlevel, Int.floor_intCast, Int.toNat_natCast, UInt8.ofNat_toNat]

/-- Four bytes are those of the integer they stand for. -/
theorem intToBytes_valueOf {v : List Byte} (h : v.length = 4) :
    intToBytes (Player.valueOf v) = v := by
  match v, h with
  | [b0, b1, b2, b3], _ =>
    have hbyte (z : ℤ) (b : Byte) (hz : z % 256 = b.toNat) : intToByte z = b := by
      have hbits : lowBits 8 z = b.toNat := by
        rw [lowBits]
        omega
      rw [intToByte, hbits, UInt8.ofNat_toNat]
    have h0 := b0.toNat_lt
    have h1 := b1.toNat_lt
    have h2 := b2.toNat_lt
    have h3 := b3.toNat_lt
    have hmod := Int.bmod_emod (x := (Nat.ofDigits 256 ([b0, b1, b2, b3].map UInt8.toNat) : ℕ))
      (m := 2 ^ 32)
    rw [← signed, ← Player.valueOf] at hmod
    generalize Player.valueOf [b0, b1, b2, b3] = n at hmod
    simp only [List.map_cons, List.map_nil, Nat.ofDigits_cons, Nat.ofDigits_nil] at hmod
    rw [intToBytes, hbyte n b0 (by omega), hbyte _ b1 (by omega), hbyte _ b2 (by omega),
      hbyte _ b3 (by omega)]

/-- **What the host can send**, as bytes. -/
theorem emitted_iff {p : List Byte} : Emitted p ↔ Form p := by
  constructor
  · rintro ⟨rt, m, hm, hlong, hp⟩
    cases m with
    | mag f =>
      obtain rfl := Option.some.inj ((generateMag_eq hm.1 hm.2).symm.trans hp)
      exact .mag _
    | freq n =>
      obtain rfl := Option.some.inj hp
      exact .freq rfl
    | keepAlive =>
      obtain rfl := Option.some.inj hp
      exact .alive
    | texture l =>
      obtain rfl := Option.some.inj ((generateTexture_eq l).symm.trans hp)
      exact .text (by rw [List.length_map]; exact hlong) (by rw [List.length_map]; exact hm.2.1)
    | wave type f amp =>
      obtain rfl := Option.some.inj ((generateWave_eq rt type amp hm.1).symm.trans hp)
      have hfive : 5 ≤ waveLength f := (le_waveLength_iff hm.1 (by omega)).2 (by
        have hlong' : f ≤ 2000 := hlong
        rw [textureSampleRate]
        push_cast
        linarith)
      have hle : waveLength f ≤ 1000 := by
        rw [waveLength, maxBytePacket]
        omega
      exact .text (by rwa [length_waveBody]) (by rwa [length_waveBody])
  · intro h
    cases h with
    | mag b =>
      refine ⟨zeroRuntime, .mag (friction b), friction_mem b, trivial, ?_⟩
      rw [encode, generateMag_eq (friction_mem b).1 (friction_mem b).2, level_friction]
    | @freq v hv =>
      refine ⟨zeroRuntime, .freq (Player.valueOf v), signed_mem 31 _, trivial, ?_⟩
      rw [encode, intToBytes_valueOf hv]
      rfl
    | alive => exact ⟨zeroRuntime, .keepAlive, trivial, trivial, rfl⟩
    | @text body h5 hmax =>
      refine ⟨zeroRuntime, .texture (body.map friction), ?_, ?_, ?_⟩
      · refine ⟨by rw [List.length_map]; omega, by rwa [List.length_map], fun f hf => ?_⟩
        obtain ⟨b, -, rfl⟩ := List.mem_map.1 hf
        exact friction_mem b
      · rw [Message.LongEnough, List.length_map]
        exact h5
      · have hbody : (body.map friction).map (fun f => toByte (f * maxFrictionByte)) = body := by
          rw [List.map_map]
          refine (List.map_congr_left fun b _ => ?_).trans (List.map_id body)
          rw [Function.comp_apply, toByte_level (friction_mem b).1 (friction_mem b).2,
            level_friction, id]
        rw [encode, generateTexture_eq, hbody]

/-- A message is not read past its end. -/
theorem Form.complete {p : List Byte} (h : Form p) : Complete p := by
  intro rx hr
  cases h with
  | mag b =>
    rcases hr with ⟨h1, -⟩ | ⟨-, -, hid⟩
    · exact absurd h1 (Nat.succ_ne_self 1)
    · rw [receive_zero] at hid
      exact absurd hid (by decide)
  | freq hv =>
    rcases hr with ⟨h1, -⟩ | ⟨-, h5, -⟩
    · rw [List.length_cons] at h1
      omega
    · rw [List.length_cons] at h5
      omega
  | alive =>
    rcases hr with ⟨-, hid⟩ | ⟨-, -, hid⟩ <;> rw [receive_zero] at hid <;>
      exact absurd hid (by decide)
  | text h5 hmax =>
    rcases hr with ⟨h1, -⟩ | ⟨-, hlt, -⟩
    · rw [List.length_cons] at h1
      omega
    · rw [List.length_cons] at hlt
      omega

end TPadFire.Host
