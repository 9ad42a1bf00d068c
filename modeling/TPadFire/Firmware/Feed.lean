import TPadFire.Firmware.Residue

/-!
# Payloads one after the other

`feed` calls `ADBCallback` on the payloads of a list in order, with no tick of the timer in between;
a trap ends it. The receive buffer carries over from payload to payload, but what a complete message
does cannot depend on it (`callback_complete`, `feed_append`).

`Device.Alike` compares two devices by what can be seen of them: the textures, the playback state,
the PWM registers and the core timer. The global `tpadMAG` is not part of it: `ADBCallback` writes
it before it reads it, so devices that differ in it alone stay so (`adbCallback_near`).
-/

namespace TPadFire.Firmware

/-! ## Outcomes -/

namespace Outcome

/-- Go on with `k` after a handler that returned. -/
def bind (o : Outcome) (k : Device → Outcome) : Outcome :=
  match o with
  | returned d => k d
  | trapped d => trapped d

@[simp] theorem returned_bind (d : Device) (k : Device → Outcome) : (returned d).bind k = k d := rfl

@[simp] theorem trapped_bind (d : Device) (k : Device → Outcome) :
    (trapped d).bind k = trapped d := rfl

@[simp] theorem bind_returned (o : Outcome) : o.bind returned = o := by cases o <;> rfl

theorem bind_assoc (o : Outcome) (k k' : Device → Outcome) :
    (o.bind k).bind k' = o.bind fun d => (k d).bind k' := by cases o <;> rfl

theorem bind_eq_returned {o : Outcome} {k : Device → Outcome} {d : Device} :
    o.bind k = returned d ↔ ∃ d', o = returned d' ∧ k d' = returned d := by
  cases o with
  | returned d' => simp
  | trapped d' => simp

/-- Two handlers end in the same way, in devices that are related. -/
inductive Rel (R : Device → Device → Prop) : Outcome → Outcome → Prop
  | returned {d d' : Device} (h : R d d') : Rel R (.returned d) (.returned d')
  | trapped {d d' : Device} (h : R d d') : Rel R (.trapped d) (.trapped d')

variable {R S : Device → Device → Prop} {o o' : Outcome} {k k' : Device → Outcome}

theorem Rel.bind (h : o.Rel R o') (hk : ∀ d d', R d d' → (k d).Rel R (k' d')) :
    (o.bind k).Rel R (o'.bind k') := by
  cases h with
  | returned h => exact hk _ _ h
  | trapped h => exact .trapped h

theorem Rel.mono (h : o.Rel R o') (hRS : ∀ d d', R d d' → S d d') : o.Rel S o' := by
  cases h with
  | returned h => exact .returned (hRS _ _ h)
  | trapped h => exact .trapped (hRS _ _ h)

/-- A handler that ends as one that returned has returned. -/
theorem Rel.of_returned {d : Device} (h : (Outcome.returned d).Rel R o') :
    ∃ d', o' = .returned d' ∧ R d d' := by
  cases h with
  | returned h => exact ⟨_, rfl, h⟩

theorem Rel.returned_of {d' : Device} (h : o.Rel R (Outcome.returned d')) :
    ∃ d, o = .returned d ∧ R d d' := by
  cases h with
  | returned h => exact ⟨_, rfl, h⟩

end Outcome

/-! ## Feeding payloads -/

/-- `ADBCallback` on the payloads `ps`, in order. -/
def feed : List (List Byte) → Board → Outcome
  | [], b => .returned b.dev
  | p :: ps, b =>
    (adbCallback (receive p b.rx) p.length b.dev).bind fun d => feed ps ⟨d, receive p b.rx⟩

/-- Feeding payloads is a run of the firmware with no tick. -/
theorem feed_eq_returned {ps : List (List Byte)}
    (hps : ∀ p ∈ ps, p.length ≤ adbPacketMaxRecvDataBytes) {b : Board} {d : Device} :
    feed ps b = .returned d ↔ ∃ rx, system.Run b (ps.map .payload) ⟨d, rx⟩ := by
  induction ps generalizing b with
  | nil =>
    simp only [feed, Outcome.returned.injEq, List.map_nil, Lts.run_nil]
    constructor
    · rintro rfl
      exact ⟨b.rx, rfl⟩
    · rintro ⟨rx, rfl⟩
      rfl
  | cons p ps ih =>
    have ih' := fun b => @ih (fun q hq => hps q (List.mem_cons_of_mem _ hq)) b
    simp only [feed, Outcome.bind_eq_returned, List.map_cons, Lts.run_cons, system_step, ih']
    constructor
    · rintro ⟨d', hcall, rx, hrun⟩
      exact ⟨rx, _, .payload (hps p List.mem_cons_self) hcall, hrun⟩
    · rintro ⟨rx, b', hstep, hrun⟩
      cases hstep with
      | payload hp hcall => exact ⟨_, hcall, rx, hrun⟩

/-! ## Complete messages -/

/-- The payload, as a message, is not read past its end. -/
def Complete (p : List Byte) : Prop := ∀ rx, ¬ ReadsResidue p.length (receive p rx)

variable {p : List Byte} {ps qs : List (List Byte)} {d : Device} {rx rx' : RecvBuffer}

theorem callback_complete (h : Complete p) (rx rx' : RecvBuffer) (d : Device) :
    adbCallback (receive p rx) p.length d = adbCallback (receive p rx') p.length d :=
  adbCallback_agree (h rx') (agree_receive p rx' rx)

theorem feed_complete (h : ∀ p ∈ ps, Complete p) (rx rx' : RecvBuffer) (d : Device) :
    feed ps ⟨d, rx⟩ = feed ps ⟨d, rx'⟩ := by
  induction ps generalizing d rx rx' with
  | nil => rfl
  | cons p ps ih =>
    rw [feed, feed]
    dsimp only
    rw [callback_complete (h p List.mem_cons_self) rx rx' d]
    congr 1
    funext d₁
    exact ih (fun q hq => h q (List.mem_cons_of_mem _ hq)) _ _ d₁

theorem feed_append (h : ∀ q ∈ qs, Complete q) (rx' : RecvBuffer) :
    feed (ps ++ qs) ⟨d, rx⟩ = (feed ps ⟨d, rx⟩).bind fun d' => feed qs ⟨d', rx'⟩ := by
  induction ps generalizing d rx with
  | nil => exact feed_complete h rx rx' d
  | cons p ps ih =>
    rw [List.cons_append, feed, feed, Outcome.bind_assoc]
    congr 1
    funext d₁
    exact ih

/-- What every message preserves, feeding them preserves. -/
theorem feed_preserves {I : Device → Prop}
    (hstep : ∀ p ∈ ps, ∀ rx d d', I d → adbCallback (receive p rx) p.length d = .returned d' → I d')
    {d' : Device} (hd : I d) (h : feed ps ⟨d, rx⟩ = .returned d') : I d' := by
  induction ps generalizing d rx with
  | nil => exact Outcome.returned.inj h ▸ hd
  | cons p ps ih =>
    rw [feed] at h
    obtain ⟨d₁, h₁, h'⟩ := Outcome.bind_eq_returned.1 h
    exact ih (fun q hq => hstep q (List.mem_cons_of_mem _ hq))
      (hstep p List.mem_cons_self _ _ _ hd h₁) h'

/-- Payloads that all return, in boards with `I`, return when they are fed. -/
theorem feed_returns {I : Board → Prop}
    (hstep : ∀ p ∈ ps, ∀ b, I b → ∃ d', adbCallback (receive p b.rx) p.length b.dev = .returned d' ∧
      I ⟨d', receive p b.rx⟩) {b : Board} (hb : I b) :
    ∃ b', feed ps b = .returned b'.dev ∧ I b' := by
  induction ps generalizing b with
  | nil => exact ⟨b, rfl, hb⟩
  | cons p ps ih =>
    obtain ⟨d', hcall, hI⟩ := hstep p List.mem_cons_self b hb
    rw [feed, hcall, Outcome.returned_bind]
    exact ih (fun q hq => hstep q (List.mem_cons_of_mem _ hq)) hI

/-- What one message establishes and the later ones preserve holds in the end. -/
theorem feed_establishes {I J : Device → Prop} (hp : p ∈ ps)
    (hJ : ∀ q ∈ ps, ∀ rx d d', J d → adbCallback (receive q rx) q.length d = .returned d' → J d')
    (hI : ∀ q ∈ ps, ∀ rx d d', I d → adbCallback (receive q rx) q.length d = .returned d' → I d')
    (hIJ : ∀ rx d d', J d → adbCallback (receive p rx) p.length d = .returned d' → I d')
    {d' : Device} (hd : J d) (h : feed ps ⟨d, rx⟩ = .returned d') : I d' := by
  induction ps generalizing d rx with
  | nil => exact absurd hp List.not_mem_nil
  | cons q ps ih =>
    rw [feed] at h
    obtain ⟨d₁, h₁, h'⟩ := Outcome.bind_eq_returned.1 h
    rcases List.mem_cons.1 hp with rfl | hp
    · exact feed_preserves (fun q hq => hI q (List.mem_cons_of_mem _ hq)) (hIJ _ _ _ hd h₁) h'
    · exact ih hp (fun q hq => hJ q (List.mem_cons_of_mem _ hq))
        (fun q hq => hI q (List.mem_cons_of_mem _ hq)) (hJ q List.mem_cons_self _ _ _ hd h₁) h'

/-! ## What can be seen of a device -/

/-- Two devices look alike: both halves hold the same up to their lengths, and playback, the PWM and
the core timer are the same. -/
structure Device.Alike (d d' : Device) : Prop where
  contents : ∀ s, (d.tBuff.buff s).contents (d.tBuff.length s).toNat =
    (d'.tBuff.buff s).contents (d'.tBuff.length s).toNat
  length : d.tBuff.length = d'.tBuff.length
  front : d.tBuff.front = d'.tBuff.front
  index : d.tBuff.index = d'.tBuff.index
  on : d.tBuff.on = d'.tBuff.on
  t3ie : d.t3ie = d'.t3ie
  oc3rs : d.oc3rs = d'.oc3rs
  pr2 : d.pr2 = d'.pr2
  coreTimer : d.coreTimer = d'.coreTimer

/-- Two devices differ in `tpadMAG` at most. -/
def Device.Near (d d' : Device) : Prop := ∃ z, d' = { d with tpadMag := z }

theorem Device.Near.refl (d : Device) : d.Near d := ⟨d.tpadMag, rfl⟩

theorem Device.Near.alike {d d' : Device} (h : d.Near d') : d.Alike d' := by
  obtain ⟨z, rfl⟩ := h
  exact ⟨fun _ => rfl, rfl, rfl, rfl, rfl, rfl, rfl, rfl, rfl⟩

/-- The callback does not read `tpadMAG`. -/
theorem adbCallback_near {data : RecvBuffer} {n : ℕ} {d d' : Device} (h : d.Near d') :
    (adbCallback data n d).Rel Device.Near (adbCallback data n d') := by
  obtain ⟨z, rfl⟩ := h
  rw [adbCallback, adbCallback]
  split_ifs with h1 h2 h3 h4 h5 h6
  · exact .returned ⟨z, rfl⟩
  · refine .returned ⟨z, ?_⟩
    simp only [handleTexture, startPlayback, loadTexture, resumeTimer3]
    split_ifs <;> rfl
  · exact .returned ⟨z, rfl⟩
  · obtain ⟨v, hv⟩ : ∃ v, intFromBytes (rawData data) = v := ⟨_, rfl⟩
    by_cases h0 : v = 0
    · rw [handleFreq_trapped (hv.trans h0), handleFreq_trapped (hv.trans h0)]
      exact .trapped ⟨z, rfl⟩
    · rw [handleFreq_returned hv h0, handleFreq_returned hv h0]
      exact .returned ⟨z, rfl⟩
  · rw [handleMag_eq, handleMag_eq]
    exact .returned ⟨_, rfl⟩
  · exact .returned ⟨z, rfl⟩
  · exact .returned ⟨z, rfl⟩

end TPadFire.Firmware
