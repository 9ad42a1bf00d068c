import TPadFire.Firmware.Filling

/-!
# The texture buffer is safe under every interleaving

`Timer3ISR` may fire between any two statements of the handlers, while a half of the buffer is being
filled, between the stores that switch to it, and while playback is being started or stopped. The
invariant has two parts. `Safe` holds at every point: `Front` selects a half, `Index` is within a
half, and while the interrupt is enabled playback is on and the half in front holds a texture that
was delivered. `At` says, for each point of the handlers, what the statements behind it have done:
how far the half that is not in front has been filled, and that the half about to come in front, or
to be played, has been filled.

A firing keeps `At`, since it writes only `Index` and the PWM count (`At.congr`), so `safe_isr` and
one case for each point (`safe_main`) suffice for every run (`interrupt_safety`).
-/

namespace TPadFire.Firmware

open Interruptible

/-! ## The invariant -/

/-- The half `s` holds the samples of a texture message among `H`. -/
def Loaded (H : List Byte → Prop) (t : TextureBuff) (s : Slot) : Prop :=
  ∃ rest, H (commandText :: rest) ∧ 5 ≤ rest.length ∧ t.Holds s (samples rest)

theorem Loaded.congr {H : List Byte → Prop} {t t' : TextureBuff} {s : Slot} (h : Loaded H t s)
    (hl : t'.length s = t.length s) (hb : t'.buff s = t.buff s) : Loaded H t' s := by
  obtain ⟨rest, hH, h5, hs⟩ := h
  exact ⟨rest, hH, h5, hs.congr hl hb⟩

theorem Loaded.length_mem {H : List Byte → Prop} {t : TextureBuff} {s : Slot} (h : Loaded H t s) :
    5 ≤ t.length s ∧ t.length s ≤ 1000 := by
  obtain ⟨rest, -, h5, hs⟩ := h
  rw [hs.length, length_samples, maxBufferLength]
  omega

/-- What holds at every point. -/
structure Safe (H : List Byte → Prop) (d : Device) : Prop where
  front : ∃ s : Slot, d.tBuff.front = s.byte
  index : 0 ≤ d.tBuff.index ∧ d.tBuff.index < 1000
  on : d.t3ie = true → d.tBuff.on = 1
  loaded : d.t3ie = true → ∀ s : Slot, d.tBuff.front = s.byte → Loaded H d.tBuff s

/-- A statement that neither changes the texture buffer, nor the interrupt, nor the control. -/
def Stmt.Quiet : Stmt → Prop
  | .incoming | .period | .clearTMR2 | .tpadMag | .setDC | .resetCoreTimer | .clearTMR3 => True
  | _ => False

/-- The memory behind the identifier holds the `n` other bytes of a texture message. -/
def Payload (H : List Byte → Prop) (raw : RawData) (n : ℕ) : Prop :=
  ∃ rest, H (commandText :: rest) ∧ 5 ≤ rest.length ∧
    raw.contents (min n maxBufferLength) = samples rest

theorem Payload.loaded {H : List Byte → Prop} {raw : RawData} {n : ℕ} {t : TextureBuff} {s : Slot}
    (h : Payload H raw n) (ht : t.Holds s (raw.contents (min n maxBufferLength))) :
    Loaded H t s := by
  obtain ⟨rest, hH, h5, hraw⟩ := h
  exact ⟨rest, hH, h5, hraw ▸ ht⟩

/-- What holds at a point of the handlers, given by the statements that remain. -/
inductive At (H : List Byte → Prop) (rx : RecvBuffer) (d : Device) : List Stmt → Prop
  | callback (p : List Byte) (hp : H p) (hlen : p.length ≤ adbPacketMaxRecvDataBytes)
      (hrx : ∃ rx', rx = receive p rx') : At H rx d [.callback p.length]
  | quiet (is : List Stmt) (h : ∀ i ∈ is, i.Quiet) : At H rx d is
  | stop (is : List Stmt) (h : ∀ i ∈ is, i.Quiet) : At H rx d (is ++ [.clearT3IE, .on 0])
  | off (he : d.t3ie = false) : At H rx d [.on 0]
  | texture (n : ℕ) (h : Payload H (rawData rx) n) : At H rx d [.testFront n]
  | fill (n : ℕ) (h : Payload H (rawData rx) n) (s : Slot) (hf : d.tBuff.front = s.other.byte)
      (is : List Stmt) (hfill : Filling (rawData rx) n d.tBuff s is) :
      At H rx d (is ++ [.clearIndex, .front s, .testOn])
  | switch (s : Slot) (hf : d.tBuff.front = s.other.byte) (hl : Loaded H d.tBuff s) :
      At H rx d [.front s, .testOn]
  | test (s : Slot) (hf : d.tBuff.front = s.byte) (hl : Loaded H d.tBuff s) : At H rx d [.testOn]
  | on (s : Slot) (hf : d.tBuff.front = s.byte) (hl : Loaded H d.tBuff s) :
      At H rx d [.on 1, .clearTMR3, .setT3IE]
  | start (is : List Stmt) (h : ∀ i ∈ is, i.Quiet) (ho : d.tBuff.on = 1) (s : Slot)
      (hf : d.tBuff.front = s.byte) (hl : Loaded H d.tBuff s) : At H rx d (is ++ [.setT3IE])

/-! ## A firing -/

variable {H : List Byte → Prop} {rx : RecvBuffer} {d d' : Device} {is : List Stmt}

/-- The assertions do not mention `Index` or the PWM count. -/
theorem At.congr (h : At H rx d is) (hbuff : d'.tBuff.buff = d.tBuff.buff)
    (hlength : d'.tBuff.length = d.tBuff.length) (hfront : d'.tBuff.front = d.tBuff.front)
    (hon : d'.tBuff.on = d.tBuff.on) (hie : d'.t3ie = d.t3ie) : At H rx d' is := by
  have hload (s : Slot) (hl : Loaded H d.tBuff s) : Loaded H d'.tBuff s :=
    hl.congr (by rw [hlength]) (by rw [hbuff])
  cases h with
  | callback p hp hlen hrx => exact .callback p hp hlen hrx
  | quiet is h => exact .quiet is h
  | stop is h => exact .stop is h
  | off he => exact .off (hie.trans he)
  | texture n h => exact .texture n h
  | fill n h s hf is hfill =>
    exact .fill n h s (hfront.trans hf) is (hfill.congr (by rw [hlength]) (by rw [hbuff]))
  | switch s hf hl => exact .switch s (hfront.trans hf) (hload s hl)
  | test s hf hl => exact .test s (hfront.trans hf) (hload s hl)
  | on s hf hl => exact .on s (hfront.trans hf) (hload s hl)
  | start is h ho s hf hl => exact .start is h (hon.trans ho) s (hfront.trans hf) (hload s hl)

theorem stepIndex_mem {length index : ℤ} (h0 : 0 ≤ index) (h : length ≤ 1000) :
    0 ≤ stepIndex length index ∧ stepIndex length index < 1000 := by
  rw [stepIndex]
  split_ifs <;> omega

/-- While the interrupt is enabled a firing reads a sample of the half in front. -/
theorem Safe.isr (h : Safe H d) {s : Slot} (hs : d.tBuff.front = s.byte) :
    ∃ b, timer3ISR d = some (some ⟨s, d.tBuff.index, b⟩,
      { d with
        oc3rs := dutyCount (d.pr2 + 1) (levelDuty b)
        t3if := false
        tBuff := { d.tBuff with index := d.tBuff.nextIndex s } }) := by
  obtain ⟨b, hb⟩ := Block.cell?_isSome (b := d.tBuff.buff s) h.index.1 h.index.2
  exact ⟨b, timer3ISR_of_sample hs hb⟩

/-- **A firing keeps the invariant.** -/
theorem safe_isr {r : Option Read} (h : Safe H d) (hat : At H rx d is) (he : d.t3ie = true)
    (hisr : timer3ISR d = some (r, d')) : Safe H d' ∧ At H rx d' is := by
  obtain ⟨s, hs⟩ := h.front
  obtain ⟨b, hb⟩ := h.isr hs
  obtain ⟨-, rfl⟩ := Prod.mk.inj (Option.some.inj (hb.symm.trans hisr))
  have hload := h.loaded he s hs
  refine ⟨⟨⟨s, hs⟩, stepIndex_mem h.index.1 hload.length_mem.2, h.on, ?_⟩,
    hat.congr rfl rfl rfl rfl rfl⟩
  exact fun _ s' hs' => (h.loaded he s' hs').congr rfl rfl

/-! ## A statement -/

theorem Stmt.Quiet.frame {i : Stmt} (h : i.Quiet) (rx : RecvBuffer) (d : Device) :
    (i.effect rx d).tBuff = d.tBuff ∧ (i.effect rx d).t3ie = d.t3ie ∧ i.expand rx d = [] := by
  cases i with
  | incoming | period | clearTMR2 | tpadMag | clearTMR3 =>
    exact ⟨by rw [Stmt.effect], by rw [Stmt.effect], rfl⟩
  | setDC | resetCoreTimer => exact ⟨rfl, rfl, rfl⟩
  | _ => exact h.elim

theorem Safe.congr (h : Safe H d) (ht : d'.tBuff = d.tBuff) (he : d'.t3ie = d.t3ie) :
    Safe H d' := by
  refine ⟨by rw [ht]; exact h.front, by rw [ht]; exact h.index, ?_, ?_⟩
  · rw [ht, he]
    exact h.on
  · rw [ht, he]
    exact h.loaded

/-- While the interrupt is disabled nothing has to be in front. -/
theorem Safe.of_disabled (h : Safe H d) (hf : d'.tBuff.front = d.tBuff.front)
    (hi : d'.tBuff.index = d.tBuff.index) (he : d'.t3ie = false) : Safe H d' :=
  ⟨by rw [hf]; exact h.front, by rw [hi]; exact h.index, fun hc => by simp [he] at hc,
    fun hc => by simp [he] at hc⟩

/-- What is in front stays safe while the other half `s` changes. -/
theorem Safe.of_other (h : Safe H d) {s : Slot} (hs : d.tBuff.front = s.other.byte)
    {t : TextureBuff} (hf : t.front = d.tBuff.front) (hi : 0 ≤ t.index ∧ t.index < 1000)
    (hon : t.on = d.tBuff.on)
    (ho : ∀ s', s' ≠ s → t.length s' = d.tBuff.length s' ∧ t.buff s' = d.tBuff.buff s') :
    Safe H { d with tBuff := t } := by
  refine ⟨hf ▸ h.front, hi, fun he => hon.trans (h.on he), fun he s' hs' => ?_⟩
  have hs'' : d.tBuff.front = s'.byte := hf.symm.trans hs'
  have hne : s' ≠ s := by
    rintro rfl
    exact Slot.other_ne s' (Slot.byte_injective (hs.symm.trans hs''))
  exact (h.loaded he s' hs'').congr (ho s' hne).1 (ho s' hne).2

/-- A quiet statement keeps what holds before it. -/
theorem safe_quiet {i : Stmt} (hi : i.Quiet) (h : Safe H d) (hat : At H rx d is) :
    Safe H (i.effect rx d) ∧ At H rx (i.effect rx d) (i.expand rx d ++ is) := by
  obtain ⟨ht, he, hexp⟩ := hi.frame rx d
  rw [hexp]
  exact ⟨h.congr ht he,
    hat.congr (by rw [ht]) (by rw [ht]) (by rw [ht]) (by rw [ht]) he⟩

theorem payload_receive {rest : List Byte} {rx' : RecvBuffer} (h5 : 5 ≤ rest.length)
    (hlen : rest.length < adbPacketMaxRecvDataBytes) (hp : H (commandText :: rest)) :
    Payload H (rawData (receive (commandText :: rest) rx')) rest.length :=
  ⟨rest, hp, h5, contents_samples hlen⟩

/-- The tests of the callback choose a branch. -/
theorem at_callbackCode {p : List Byte} (hp : H p) (hlen : p.length ≤ adbPacketMaxRecvDataBytes)
    {rx' : RecvBuffer} : At H (receive p rx') d (callbackCode (receive p rx') p.length) := by
  rw [callbackCode]
  split_ifs with h1 h2 h3 h4 h5 h6
  · exact .quiet [] (by simp)
  · cases p with
    | nil => simp at h1
    | cons id rest =>
      obtain rfl : id = commandText := (receive_zero id rest rx').symm.trans h3
      simp only [List.length_cons] at h2 hlen
      exact .texture _ (payload_receive (by omega) hlen hp)
  · exact .quiet [] (by simp)
  · exact .quiet _ (by simp [Stmt.Quiet])
  · exact .stop [.tpadMag, .setDC] (by simp [Stmt.Quiet])
  · exact .quiet _ (by simp [Stmt.Quiet])
  · exact .quiet [] (by simp)

/-- **A statement keeps the invariant.** -/
theorem safe_main {i : Stmt} (h : Safe H d) (hat : At H rx d (i :: is)) :
    Safe H (i.effect rx d) ∧ At H rx (i.effect rx d) (i.expand rx d ++ is) := by
  generalize hcode : i :: is = code at hat
  cases hat with
  | callback p hp hlen hrx =>
    obtain ⟨rfl, rfl⟩ := List.cons.inj hcode
    obtain ⟨rx', rfl⟩ := hrx
    rw [List.append_nil]
    exact ⟨h, at_callbackCode hp hlen⟩
  | quiet is' hq =>
    subst hcode
    exact safe_quiet (hq i List.mem_cons_self) h
      (.quiet is fun j hj => hq j (List.mem_cons_of_mem _ hj))
  | stop is' hq =>
    cases is' with
    | nil =>
      obtain ⟨rfl, rfl⟩ := List.cons.inj hcode
      exact ⟨h.of_disabled rfl rfl rfl, .off rfl⟩
    | cons j is' =>
      obtain ⟨rfl, rfl⟩ := List.cons.inj hcode
      exact safe_quiet (hq i List.mem_cons_self) h
        (.stop is' fun j hj => hq j (List.mem_cons_of_mem _ hj))
  | off he =>
    obtain ⟨rfl, rfl⟩ := List.cons.inj hcode
    exact ⟨h.of_disabled rfl rfl he, .quiet [] (by simp)⟩
  | texture n hp =>
    obtain ⟨rfl, rfl⟩ := List.cons.inj hcode
    obtain ⟨s, hs⟩ := h.front
    have hother : d.tBuff.front = s.other.other.byte := by rw [hs]; cases s <;> rfl
    rw [List.append_nil, Stmt.expand, textureCode_of_front hs]
    exact ⟨h, .fill n hp s.other hother _ .length⟩
  | fill n hp s hf is' hfill =>
    cases is' with
    | nil =>
      obtain ⟨rfl, rfl⟩ := List.cons.inj hcode
      have hload : Loaded H d.tBuff s := hp.loaded hfill.holds
      exact ⟨h.of_other hf rfl (by simp) rfl fun _ _ => ⟨rfl, rfl⟩,
        .switch s hf (hload.congr rfl rfl)⟩
    | cons j is' =>
      obtain ⟨rfl, rfl⟩ := List.cons.inj hcode
      have hmain := hfill.main
      obtain ⟨t, ht, hfront, hindex, hon, hother⟩ :=
        (hfill.fills i List.mem_cons_self).frame rx d
      have hat := At.fill (H := H) (d := i.effect rx d) n hp s (ht ▸ hfront.trans hf) _ hmain
      rw [List.append_assoc] at hat
      exact ⟨ht ▸ h.of_other hf hfront (hindex ▸ h.index) hon hother, hat⟩
  | switch s hf hl =>
    obtain ⟨rfl, rfl⟩ := List.cons.inj hcode
    refine ⟨⟨⟨s, rfl⟩, h.index, h.on, fun _ s' hs' => ?_⟩, .test s rfl (hl.congr rfl rfl)⟩
    obtain rfl := Slot.byte_injective hs'
    exact hl.congr rfl rfl
  | test s hf hl =>
    obtain ⟨rfl, rfl⟩ := List.cons.inj hcode
    refine ⟨h, ?_⟩
    simp only [Stmt.expand, Stmt.effect, List.append_nil]
    split_ifs
    · exact .on s hf hl
    · exact .quiet [] (by simp)
  | on s hf hl =>
    obtain ⟨rfl, rfl⟩ := List.cons.inj hcode
    exact ⟨⟨h.front, h.index, fun _ => rfl, fun he s' hs' => (h.loaded he s' hs').congr rfl rfl⟩,
      .start [.clearTMR3] (by simp [Stmt.Quiet]) rfl s hf (hl.congr rfl rfl)⟩
  | start is' hq ho s hf hl =>
    cases is' with
    | nil =>
      obtain ⟨rfl, rfl⟩ := List.cons.inj hcode
      refine ⟨⟨h.front, h.index, fun _ => ho, fun _ s' hs' => ?_⟩, .quiet [] (by simp)⟩
      obtain rfl := Slot.byte_injective (hf.symm.trans hs')
      exact hl
    | cons j is' =>
      obtain ⟨rfl, rfl⟩ := List.cons.inj hcode
      exact safe_quiet (hq i List.mem_cons_self) h
        (.start is' (fun j hj => hq j (List.mem_cons_of_mem _ hj)) ho s hf hl)

/-! ## Runs -/

/-- The statement is part of a `memmove` into the half `s`. -/
def Stmt.Copies (s : Slot) : Stmt → Prop
  | .memmove s' => s' = s
  | .copyByte s' _ => s' = s
  | _ => False

theorem Stmt.Fills.not_copies {i : Stmt} {s s' : Slot} (h : i.Fills s) (hs : s' ≠ s) :
    ¬ i.Copies s' := by
  rintro hc
  cases i <;> first | exact hs (hc.symm.trans h) | exact hc

/-- Nothing is being copied into the half in front. -/
theorem At.not_copies (h : At H rx d is) {s : Slot} (hs : d.tBuff.front = s.byte) :
    ∀ i ∈ is, ¬ i.Copies s := by
  have hquiet {j : Stmt} (hj : j.Quiet) : ¬ j.Copies s := by
    cases j <;> first | exact hj.elim | exact id
  cases h with
  | callback p hp hlen hrx => simp [Stmt.Copies]
  | quiet is hq => exact fun i hi => hquiet (hq i hi)
  | stop is hq =>
    have htail : ∀ i ∈ [Stmt.clearT3IE, .on 0], ¬ i.Copies s := by simp [Stmt.Copies]
    exact fun i hi => (List.mem_append.1 hi).elim (fun hi => hquiet (hq i hi)) (htail i)
  | off he => simp [Stmt.Copies]
  | texture n hp => simp [Stmt.Copies]
  | fill n hp s' hf is hfill =>
    have hne : s ≠ s' := by
      rintro rfl
      exact Slot.other_ne s (Slot.byte_injective (hf.symm.trans hs))
    have htail : ∀ i ∈ [Stmt.clearIndex, .front s', .testOn], ¬ i.Copies s := by
      simp [Stmt.Copies]
    exact fun i hi =>
      (List.mem_append.1 hi).elim (fun hi => (hfill.fills i hi).not_copies hne) (htail i)
  | switch s' hf hl => simp [Stmt.Copies]
  | test s' hf hl => simp [Stmt.Copies]
  | on s' hf hl => simp [Stmt.Copies]
  | start is hq ho s' hf hl =>
    have htail : ∀ i ∈ [Stmt.setT3IE], ¬ i.Copies s := by simp [Stmt.Copies]
    exact fun i hi => (List.mem_append.1 hi).elim (fun hi => hquiet (hq i hi)) (htail i)

theorem safe_boot : Safe H boot :=
  ⟨⟨.buff0, rfl⟩, ⟨le_refl _, by decide⟩, fun he => absurd he (by decide),
    fun he => absurd he (by decide)⟩

/-- The invariant along a run, whose requests are the messages. -/
theorem safe_run {ls : Trace} {c : Config Board Stmt}
    (h : firmware.lts.Run ⟨[], bootBoard⟩ ls c) :
    Safe (fun p => .call p ∈ ls) c.mem.dev ∧
      At (fun p => .call p ∈ ls) c.mem.rx c.mem.dev c.code := by
  refine h.invariant_mem (I := fun c => Safe (fun p => .call p ∈ ls) c.mem.dev ∧
    At (fun p => .call p ∈ ls) c.mem.rx c.mem.dev c.code) ?_ ⟨safe_boot, .quiet [] (by simp)⟩
  rintro c l c' hl ⟨hsafe, hat⟩ hstep
  cases hstep with
  | @call p b b' is hcall =>
    simp only [firmware] at hcall
    split_ifs at hcall with hlen
    obtain ⟨rfl, rfl⟩ := Prod.mk.inj (Option.some.inj hcall)
    exact ⟨hsafe, .callback p hl hlen ⟨b.rx, rfl⟩⟩
  | @main i is js b b' hexec =>
    obtain ⟨rfl, rfl⟩ := exec_some hexec
    exact safe_main hsafe hat
  | @isr r is b b' he hisr =>
    obtain ⟨d', hr, rfl⟩ := firmware_isr hisr
    exact safe_isr hsafe hat he hr

/-- **The texture buffer is safe under every interleaving.** In every state of every run, `Front` is
0 or 1. While the interrupt is enabled, `On` is 1 and a firing reads the sample at `Index`, which is
within the half in front; no byte is being copied to that half, its length is between 5 and 1000,
and it holds the samples of a texture message of the run. -/
theorem interrupt_safety {ls : Trace} {c : Config Board Stmt}
    (h : firmware.lts.Run ⟨[], bootBoard⟩ ls c) :
    (c.mem.dev.tBuff.front = 0 ∨ c.mem.dev.tBuff.front = 1) ∧
    (c.mem.dev.t3ie = true → c.mem.dev.tBuff.on = 1 ∧
      ∃ r d', timer3ISR c.mem.dev = some (some r, d') ∧ r.slot.byte = c.mem.dev.tBuff.front ∧
        r.index = c.mem.dev.tBuff.index ∧ 0 ≤ r.index ∧ r.index < 1000 ∧
        (∀ i ∈ c.code, ¬ i.Copies r.slot) ∧
        5 ≤ c.mem.dev.tBuff.length r.slot ∧ c.mem.dev.tBuff.length r.slot ≤ 1000 ∧
        ∃ rest, .call (commandText :: rest) ∈ ls ∧ 5 ≤ rest.length ∧
          c.mem.dev.tBuff.Holds r.slot (samples rest)) := by
  obtain ⟨hsafe, hat⟩ := safe_run h
  obtain ⟨s, hs⟩ := hsafe.front
  refine ⟨by cases s; exacts [.inl hs, .inr hs], fun he => ⟨hsafe.on he, ?_⟩⟩
  obtain ⟨b, hb⟩ := hsafe.isr hs
  have hload := hsafe.loaded he s hs
  exact ⟨_, _, hb, hs.symm, rfl, hsafe.index.1, hsafe.index.2, hat.not_copies hs,
    hload.length_mem.1, hload.length_mem.2, hload⟩

/-- After a texture of five samples the interrupt is enabled and a firing reads the first one. -/
theorem interrupt_safety_texture :
    ∃ (ls : Trace) (c : Config Board Stmt), firmware.lts.Run ⟨[], bootBoard⟩ ls c ∧
      .call [commandText, 9, 8, 7, 6, 5] ∈ ls ∧ c.mem.dev.t3ie = true ∧
      (c.mem.dev.tBuff.front = 0 ∨ c.mem.dev.tBuff.front = 1) ∧ c.mem.dev.tBuff.on = 1 ∧
      ∃ r d', timer3ISR c.mem.dev = some (some r, d') ∧ r.slot.byte = c.mem.dev.tBuff.front ∧
        r.index = 0 := by
  have hcall : adbCallback (receive [commandText, 9, 8, 7, 6, 5] bootBoard.rx) 6 boot = _ :=
    adbCallback_text (by decide) (by decide)
  obtain ⟨ms, hrun⟩ := run_payload (p := [commandText, 9, 8, 7, 6, 5]) (by decide) bootBoard hcall
  obtain ⟨hfront, hplaying⟩ := interrupt_safety hrun
  obtain ⟨hon, r, d', hr, hslot, hindex, -⟩ := hplaying rfl
  exact ⟨_, _, hrun, List.mem_cons_self, rfl, hfront, hon, r, d', hr, hslot, hindex⟩

end TPadFire.Firmware
