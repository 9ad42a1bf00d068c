import TPadFire.Host.Forms

/-!
# Messages merged into one payload

`ADBCallback` takes every payload to be one message, so several messages that arrive as one payload
are in general not handled as they are one by one. Up to five keep-alive messages are, and two
magnitude messages of the same duty cycle (`Mergeable`). From some device states no other payload of
several messages is (`mergeable_of_faithful`).
-/

namespace TPadFire.Host

open Firmware

/-! ## Payloads of several messages -/

/-- The messages of a payload that is handled as they are one by one. -/
inductive Mergeable : List (List Byte) → Prop
  | single (m : List Byte) : Mergeable [m]
  | alive {k : ℕ} (h1 : 1 ≤ k) (h5 : k ≤ 5) : Mergeable (List.replicate k [commandAlive])
  /-- The levels below 6 all have the least duty cycle. -/
  | mag {a b : Byte} (h : a = b ∨ (a.toNat < 6 ∧ b.toNat < 6)) :
      Mergeable [[commandMag, a], [commandMag, b]]

section Merged

variable {d d' : Device} {rx rx' : RecvBuffer} {g : List (List Byte)}

theorem feed_singleton (m : List Byte) (rx : RecvBuffer) (d : Device) :
    feed [m] ⟨d, rx⟩ = adbCallback (receive m rx) m.length d :=
  Outcome.bind_returned _

theorem feed_alive (k : ℕ) (rx : RecvBuffer) (d : Device) :
    feed (List.replicate (k + 1) [commandAlive]) ⟨d, rx⟩ = .returned { d with coreTimer := 0 } := by
  induction k generalizing d rx with
  | zero =>
    rw [List.replicate_one, feed_singleton]
    exact callback_alive [] (Nat.zero_le 4)
  | succ k ih =>
    rw [List.replicate_succ, feed, callback_alive [] (Nat.zero_le 4), Outcome.returned_bind, ih]

theorem feed_mag_mag (a b : Byte) (rx : RecvBuffer) (d : Device) :
    feed [[commandMag, a], [commandMag, b]] ⟨d, rx⟩ = .returned { d with
      tpadMag := b.toNat
      oc3rs := dutyCount (d.pr2 + 1) (levelDuty b)
      t3ie := false
      tBuff := { d.tBuff with on := 0 } } := by
  rw [feed, callback_mag a [] (Nat.zero_le 3), Outcome.returned_bind, feed_singleton,
    callback_mag b [] (Nat.zero_le 3)]

/-- The levels below 6 have the same duty cycle. -/
theorem dutyCount_level_eq {a b : Byte} (h : a = b ∨ (a.toNat < 6 ∧ b.toNat < 6)) (period : ℕ) :
    dutyCount period (levelDuty a) = dutyCount period (levelDuty b) := by
  rcases h with rfl | ⟨ha, hb⟩
  · rfl
  · rw [dutyCount_level, dutyCount_level, if_pos (by omega), if_pos (by omega)]

/-- **A mergeable payload** does what its messages do one by one. -/
theorem Mergeable.feed (hm : Mergeable g) (hg : ∀ m ∈ g, Form m) (hd : d.Near d') :
    (adbCallback (receive g.flatten rx) g.flatten.length d).Rel Device.Near (feed g ⟨d', rx'⟩) := by
  cases hm with
  | single m =>
    rw [List.flatten_singleton, feed_singleton,
      callback_complete (hg m List.mem_cons_self).complete rx' rx]
    exact adbCallback_near hd
  | @alive k h1 h5 =>
    obtain ⟨k, rfl⟩ := Nat.exists_eq_add_of_le' h1
    obtain ⟨z, rfl⟩ := hd
    rw [List.flatten_replicate_singleton, List.replicate_succ,
      callback_alive _ (by rw [List.length_replicate]; omega), feed_alive]
    exact .returned ⟨z, rfl⟩
  | @mag a b h =>
    obtain ⟨z, rfl⟩ := hd
    have hpayload : [[commandMag, a], [commandMag, b]].flatten = [commandMag, a, commandMag, b] :=
      rfl
    rw [hpayload, callback_mag a [commandMag, b] (Nat.le_succ 2), feed_mag_mag,
      dutyCount_level_eq h]
    exact .returned ⟨_, rfl⟩

/-- **Mergeable payloads**, in any order and number, do what their messages do one by one. -/
theorem feed_mergeable {gs : List (List (List Byte))} (hgs : ∀ g ∈ gs, Mergeable g)
    (hform : ∀ g ∈ gs, ∀ m ∈ g, Form m) (hd : d.Near d') :
    (feed (gs.map List.flatten) ⟨d, rx⟩).Rel Device.Near (feed gs.flatten ⟨d', rx'⟩) := by
  induction gs generalizing d d' rx rx' with
  | nil => exact .returned hd
  | cons g gs ih =>
    have hcomplete : ∀ m ∈ gs.flatten, Complete m := fun m hm => by
      obtain ⟨g', hg', hm'⟩ := List.mem_flatten.1 hm
      exact (hform g' (List.mem_cons_of_mem _ hg') m hm').complete
    rw [List.map_cons, List.flatten_cons, Firmware.feed, feed_append hcomplete rx']
    refine ((hgs g List.mem_cons_self).feed (hform g List.mem_cons_self) hd).bind fun _ _ h => ?_
    exact ih (fun g' hg' => hgs g' (List.mem_cons_of_mem _ hg'))
      (fun g' hg' => hform g' (List.mem_cons_of_mem _ hg')) h

end Merged

/-! ## The other payloads -/

section Probe

variable {d d' : Device} {rx : RecvBuffer} {g : List (List Byte)} {m : List Byte}

/-- A device that plays, with a PWM period of `p + 1` counts, and whose core timer has counted. -/
def probe (p : ℕ) : Device :=
  { boot with pr2 := p, coreTimer := 1, t3ie := true, tBuff := { boot.tBuff with on := 1 } }

theorem handleTexture_probe (raw : RawData) (n p : ℕ) :
    handleTexture raw n (probe p) = loadTexture .buff1 raw n (probe p) := by
  rw [handleTexture_of_front (s := .buff1) rfl]
  exact if_neg (show ¬ (1 : Byte) = 0 by decide)

/-- A texture message, by its first byte. -/
def IsText (m : List Byte) : Prop := ∃ body, m = commandText :: body

theorem cons_of_receive_zero {c : Byte} (hne : m ≠ []) (h : receive m rx 0 = c) :
    ∃ rest, m = c :: rest := by
  cases m with
  | nil => exact absurd rfl hne
  | cons id rest => exact ⟨rest, by rw [← h, receive_zero]⟩

theorem Form.ne_nil (h : Form m) : m ≠ [] := by cases h <;> exact List.cons_ne_nil _ _

/-- A texture message has its samples. -/
theorem Form.text_body (h : Form m) (ht : IsText m) :
    ∃ body, m = commandText :: body ∧ 5 ≤ body.length := by
  obtain ⟨body, rfl⟩ := ht
  cases h with
  | text h5 _ => exact ⟨body, rfl, h5⟩

/-- The core timer, once reset, stays so. -/
theorem coreTimer_of_alive (hg : [commandAlive] ∈ g) (h : feed g ⟨d, rx⟩ = .returned d') :
    d'.coreTimer = 0 := by
  refine feed_establishes (I := fun d => d.coreTimer = 0) (J := fun _ => True) hg
    (fun _ _ _ _ _ _ _ => trivial) (fun m _ rx d d' hd h => ?_) (fun rx d d' _ h => ?_) trivial h
  · rcases adbCallback_coreTimer h with hsame | hreset
    · exact hsame.trans hd
    · exact hreset
  · rw [callback_alive [] (Nat.zero_le 4)] at h
    rw [← Outcome.returned.inj h]

/-- Playback, once stopped, stays so until a texture. -/
theorem on_of_mag {b : Byte} (hg : [commandMag, b] ∈ g) (hform : ∀ m ∈ g, Form m)
    (htext : ∀ m ∈ g, ¬ IsText m) (h : feed g ⟨d, rx⟩ = .returned d') : d'.tBuff.on = 0 := by
  refine feed_establishes (I := fun d => d.tBuff.on = 0) (J := fun _ => True) hg
    (fun _ _ _ _ _ _ _ => trivial) (fun m hm rx d d' hd h => ?_) (fun rx d d' _ h => ?_) trivial h
  · rcases adbCallback_tBuff h with ⟨-, hid, -⟩ | ⟨v, hv, ht⟩
    · exact absurd (cons_of_receive_zero (hform m hm).ne_nil hid) (htext m hm)
    · rw [ht]
      exact hv.elim (fun hsame => hsame.trans hd) id
  · rw [callback_mag b [] (Nat.zero_le 3)] at h
    rw [← Outcome.returned.inj h]

/-- The PWM period after a frequency message is that of the last one. -/
theorem pr2_of_freq {v : List Byte} (hg : commandFreq :: v ∈ g) (hform : ∀ m ∈ g, Form m) :
    ∃ q, ∀ rx d d', feed g ⟨d, rx⟩ = .returned d' → d'.pr2 = q := by
  induction g generalizing v with
  | nil => exact absurd hg List.not_mem_nil
  | cons m ms ih =>
    have hform' : ∀ q ∈ ms, Form q := fun q hq => hform q (List.mem_cons_of_mem _ hq)
    by_cases hlater : ∃ w, commandFreq :: w ∈ ms
    · obtain ⟨w, hw⟩ := hlater
      obtain ⟨q, hq⟩ := ih hw hform'
      refine ⟨q, fun rx d d' h => ?_⟩
      rw [feed] at h
      obtain ⟨d₁, -, h'⟩ := Outcome.bind_eq_returned.1 h
      exact hq _ _ _ h'
    · obtain rfl : m = commandFreq :: v := by
        rcases List.mem_cons.1 hg with rfl | hmem
        · rfl
        · exact absurd ⟨v, hmem⟩ hlater
      have hv : v.length = 4 := by
        cases hform _ List.mem_cons_self with
        | freq hv => exact hv
      obtain ⟨z, hz⟩ : ∃ z, Player.valueOf v = z := ⟨_, rfl⟩
      obtain ⟨q, hq⟩ : ∃ q, storePeriod (sysFreq.tdiv z - 1) = q := ⟨_, rfl⟩
      refine ⟨q, fun rx d d' h => ?_⟩
      rw [feed] at h
      obtain ⟨d₁, h₁, h'⟩ := Outcome.bind_eq_returned.1 h
      refine feed_preserves (I := fun d => d.pr2 = q) (fun p hp rx d d' hd hcall => ?_) ?_ h'
      · rcases adbCallback_pr2 hcall with hsame | ⟨-, -, hid, -⟩
        · exact hsame.trans hd
        · obtain ⟨w, rfl⟩ := cons_of_receive_zero (hform' p hp).ne_nil hid
          exact absurd ⟨w, hp⟩ hlater
      · have hvalue := (intFromBytes_receive commandFreq rx hv).trans hz
        rw [callback_freq hv] at h₁
        by_cases h0 : z = 0
        · rw [handleFreq_trapped (hvalue.trans h0)] at h₁
          exact Outcome.noConfusion h₁
        · rw [handleFreq_returned hvalue h0] at h₁
          rw [← Outcome.returned.inj h₁]
          exact hq

/-- A texture gives a half its length, unless another is in front to be filled. -/
theorem handleTexture_length (raw : RawData) (n : ℕ) (d : Device) (s : Slot) :
    (handleTexture raw n d).tBuff.length s = loadLength n ∨
      (d.tBuff.front ≠ s.other.byte ∧
        (handleTexture raw n d).tBuff.length s = d.tBuff.length s) := by
  have hstart (d : Device) : (startPlayback d).tBuff.length = d.tBuff.length := by
    rw [startPlayback]
    split_ifs <;> rfl
  have hslot (s' : Slot) : (loadTexture s' raw n d).tBuff.length =
      Function.update d.tBuff.length s' (loadLength n) := rfl
  by_cases hf : d.tBuff.front = s.other.byte
  · rw [handleTexture_of_front hf, hstart, hslot, Function.update_self]
    exact .inl rfl
  · have hupdate (s' : Slot) : Function.update d.tBuff.length s' (loadLength n) s = loadLength n ∨
        Function.update d.tBuff.length s' (loadLength n) s = d.tBuff.length s := by
      by_cases hs : s = s'
      · exact .inl (by rw [hs, Function.update_self])
      · exact .inr (Function.update_of_ne hs _ _)
    refine Or.imp_right (⟨hf, ·⟩) ?_
    rw [handleTexture, hstart]
    split_ifs
    · exact hupdate .buff0
    · exact hupdate .buff1
    · exact .inr rfl

/-- A texture of at least five samples leaves no half that had samples without any. -/
theorem handleTexture_length_ne {raw : RawData} {n : ℕ} (hn : 5 ≤ n) {s : Slot}
    (h : d.tBuff.front = s.other.byte ∨ d.tBuff.length s ≠ 0) :
    (handleTexture raw n d).tBuff.length s ≠ 0 := by
  have hload : loadLength n ≠ 0 := by
    rw [loadLength_eq, maxBufferLength]
    omega
  rcases handleTexture_length raw n d s with hl | ⟨hf, hl⟩ <;> rw [hl]
  · exact hload
  · exact h.resolve_left hf

/-- A half that is filled next, or has been, has samples after a texture. -/
theorem length_of_text {s : Slot} (hm : IsText m) (hg : m ∈ g) (hform : ∀ m ∈ g, Form m)
    (hd : d.tBuff.front = s.other.byte ∨ d.tBuff.length s ≠ 0)
    (h : feed g ⟨d, rx⟩ = .returned d') : d'.tBuff.length s ≠ 0 := by
  have hstep (q : List Byte) (hq : q ∈ g) (rx : RecvBuffer) (d d' : Device)
      (h : adbCallback (receive q rx) q.length d = .returned d') :
      (∃ raw n, 5 ≤ n ∧ d' = handleTexture raw n d) ∨
        (¬ IsText q ∧ d'.tBuff.front = d.tBuff.front ∧ d'.tBuff.length = d.tBuff.length) := by
    by_cases ht : IsText q
    · obtain ⟨body, rfl, h5⟩ := (hform q hq).text_body ht
      rw [callback_text h5] at h
      exact .inl ⟨_, _, h5, (Outcome.returned.inj h).symm⟩
    · rcases adbCallback_tBuff h with ⟨-, hid, -⟩ | ⟨v, -, hv⟩
      · exact absurd (cons_of_receive_zero (hform q hq).ne_nil hid) ht
      · exact .inr ⟨ht, by rw [hv], by rw [hv]⟩
  refine feed_establishes (I := fun d => d.tBuff.length s ≠ 0)
    (J := fun d => d.tBuff.front = s.other.byte ∨ d.tBuff.length s ≠ 0) hg
    (fun q hq rx d d' hd h => ?_) (fun q hq rx d d' hd h => ?_) (fun rx d d' hd h => ?_) hd h
  · rcases hstep q hq rx d d' h with ⟨raw, n, hn, rfl⟩ | ⟨-, hf, hl⟩
    · exact .inr (handleTexture_length_ne hn hd)
    · rw [hf, hl]
      exact hd
  · rcases hstep q hq rx d d' h with ⟨raw, n, hn, rfl⟩ | ⟨-, hf, hl⟩
    · exact handleTexture_length_ne hn (.inr hd)
    · rw [hl]
      exact hd
  · rcases hstep m hg rx d d' h with ⟨raw, n, hn, rfl⟩ | ⟨hnot, -, -⟩
    · exact handleTexture_length_ne hn hd
    · exact absurd hm hnot

/-- What a payload of more than five bytes does to the probe: it is dropped, or it fills one
half. -/
theorem callback_long (rx : RecvBuffer) (hm : Form m) {rest : List Byte}
    (hlen : 5 < (m ++ rest).length) (p : ℕ) :
    ∃ d', adbCallback (receive (m ++ rest) rx) (m ++ rest).length (probe p) = .returned d' ∧
      d'.coreTimer = 1 ∧ d'.pr2 = p ∧ d'.tBuff.on = 1 ∧ d'.tBuff.length .buff0 = 0 ∧
      (IsText m ∨ d'.tBuff.length .buff1 = 0) := by
  have hdropped {id : Byte} {tail : List Byte} (hid : id ≠ commandText) (hid' : m = id :: tail) :
      adbCallback (receive (m ++ rest) rx) (m ++ rest).length (probe p) = .returned (probe p) := by
    subst hid'
    have htail : 5 ≤ (tail ++ rest).length := by
      rw [List.cons_append, List.length_cons] at hlen
      omega
    exact callback_dropped hid htail
  cases hm with
  | mag b => exact ⟨_, hdropped (by decide) rfl, rfl, rfl, rfl, rfl, .inr rfl⟩
  | freq hv => exact ⟨_, hdropped (by decide) rfl, rfl, rfl, rfl, rfl, .inr rfl⟩
  | alive => exact ⟨_, hdropped (by decide) rfl, rfl, rfl, rfl, rfl, .inr rfl⟩
  | @text body h5 hmax =>
    rw [List.cons_append]
    refine ⟨_, callback_text (by rw [List.length_append]; omega), ?_⟩
    rw [handleTexture_probe]
    exact ⟨rfl, rfl, rfl, rfl, .inl ⟨body, rfl⟩⟩

/-- The payload `g` is handled as its messages are, from every probe. -/
def Faithful (g : List (List Byte)) : Prop :=
  ∀ p < 65536, ∀ rx d₁,
    adbCallback (receive g.flatten rx) g.flatten.length (probe p) = .returned d₁ →
    ∃ d', feed g ⟨probe p, rx⟩ = .returned d' ∧ d₁.Alike d'

theorem Form.cases_text (h : Form m) : IsText m ∨ (∃ b, m = [commandMag, b]) ∨
    m = [commandAlive] ∨ ∃ v, m = commandFreq :: v ∧ m.length = 5 := by
  cases h with
  | mag b => exact .inr (.inl ⟨b, rfl⟩)
  | freq hv => exact .inr (.inr (.inr ⟨_, rfl, by rw [List.length_cons, hv]⟩))
  | alive => exact .inr (.inr (.inl rfl))
  | text h5 hmax => exact .inl ⟨_, rfl⟩

/-- No payload of several messages and more than five bytes is faithful. -/
theorem not_faithful_long {ms : List (List Byte)} (hform : ∀ q ∈ m :: ms, Form q) (hne : ms ≠ [])
    (hlen : 5 < (m :: ms).flatten.length) : ¬ Faithful (m :: ms) := by
  intro h
  have hm := hform m List.mem_cons_self
  have hrun (p : ℕ) (hp : p < 65536) : ∃ d', feed (m :: ms) ⟨probe p, fun _ => 0⟩ = .returned d' ∧
      d'.coreTimer = 1 ∧ d'.pr2 = p ∧ d'.tBuff.on = 1 ∧ d'.tBuff.length .buff0 = 0 ∧
      (IsText m ∨ d'.tBuff.length .buff1 = 0) := by
    obtain ⟨d₁, hcall, h1, h2, h3, h4, h5⟩ :=
      callback_long (fun _ => 0) hm (by rwa [List.flatten_cons] at hlen) p
    obtain ⟨d', hd', ha⟩ := h p hp _ d₁ hcall
    exact ⟨d', hd', by rw [← ha.coreTimer, h1], by rw [← ha.pr2, h2], by rw [← ha.on, h3],
      by rw [← ha.length, h4], by rw [← ha.length]; exact h5⟩
  obtain ⟨d', hd', htimer, -, hon, hzero, hone⟩ := hrun 0 (by decide)
  have halive : [commandAlive] ∉ m :: ms := fun hmem => by
    rw [coreTimer_of_alive hmem hd'] at htimer
    exact absurd htimer (by decide)
  have hfreq (v : List Byte) : commandFreq :: v ∉ m :: ms := fun hmem => by
    obtain ⟨q, hq⟩ := pr2_of_freq hmem hform
    -- of the periods 0 and 1, one is not the period that the message sets
    obtain ⟨p, hp, hpq⟩ : ∃ p < 65536, q ≠ p := by
      by_cases hq0 : q = 0
      · exact ⟨1, by decide, by rw [hq0]; decide⟩
      · exact ⟨0, by decide, hq0⟩
    obtain ⟨d'', hd'', -, hpr, -⟩ := hrun p hp
    exact hpq ((hq _ _ _ hd'').symm.trans hpr)
  have hmag (q : List Byte) (hq : q ∈ m :: ms) (hq' : ¬ IsText q) : ∃ b, q = [commandMag, b] := by
    rcases (hform q hq).cases_text with ht | hb | rfl | ⟨v, rfl, -⟩
    · exact absurd ht hq'
    · exact hb
    · exact absurd hq halive
    · exact absurd hq (hfreq v)
  by_cases htext : IsText m
  · -- The first texture is in `Buff1`; a second one would go to `Buff0`.
    obtain ⟨body, rfl, h5⟩ := hm.text_body htext
    rw [feed, callback_text h5, Outcome.returned_bind] at hd'
    have hlater : ∀ q ∈ ms, ¬ IsText q := fun q hq ht =>
      length_of_text (s := .buff0) ht hq (fun q hq => hform q (List.mem_cons_of_mem _ hq))
        (.inl (by rw [handleTexture_probe]; rfl)) hd' hzero
    obtain ⟨q, hq⟩ := List.exists_mem_of_ne_nil ms hne
    obtain ⟨b, rfl⟩ := hmag q (List.mem_cons_of_mem _ hq) (hlater q hq)
    rw [on_of_mag hq (fun q hq => hform q (List.mem_cons_of_mem _ hq)) hlater hd'] at hon
    exact absurd hon (by decide)
  · have hnone : ∀ q ∈ m :: ms, ¬ IsText q := fun q hq ht =>
      length_of_text (s := .buff1) ht hq hform (.inl rfl) hd' (hone.resolve_left htext)
    obtain ⟨b, rfl⟩ := hmag m List.mem_cons_self htext
    rw [on_of_mag List.mem_cons_self hform hnone hd'] at hon
    exact absurd hon (by decide)

/-- The longest PWM period tells two levels apart unless both are below 6. -/
theorem level_of_dutyCount {a b : Byte}
    (h : dutyCount 65536 (levelDuty a) = dutyCount 65536 (levelDuty b)) :
    a = b ∨ (a.toNat < 6 ∧ b.toNat < 6) := by
  have ha := a.toNat_lt
  have hb := b.toNat_lt
  rw [dutyCount_level, dutyCount_level] at h
  by_cases hab : a.toNat = b.toNat
  · exact .inl (UInt8.toNat_inj.1 hab)
  · right
    split_ifs at h <;> omega

theorem Form.not_text (hm : Form m) (h : m.length ≤ 5) : ¬ IsText m := by
  intro ht
  obtain ⟨body, rfl, h5⟩ := hm.text_body ht
  rw [List.length_cons] at h
  omega

/-- The messages of at most four bytes. -/
theorem Form.short (hm : Form m) (h : m.length ≤ 4) :
    (∃ b, m = [commandMag, b]) ∨ m = [commandAlive] := by
  rcases hm.cases_text with ht | hb | ha | ⟨v, -, hv⟩
  · exact absurd ht (hm.not_text (by omega))
  · exact .inl hb
  · exact .inr ha
  · omega

theorem length_add_length_le {ms : List (List Byte)} {q : List Byte}
    (hlen : (m :: ms).flatten.length ≤ 5) (hq : q ∈ ms) : m.length + q.length ≤ 5 := by
  have hsub := (List.sublist_flatten_of_mem hq).length_le
  rw [List.flatten_cons, List.length_append] at hlen
  omega

/-- After a magnitude message, a faithful payload has at most another of the same duty cycle. -/
theorem mergeable_mag {a : Byte} {ms : List (List Byte)} (hform : ∀ q ∈ ms, Form q)
    (hlen : ([commandMag, a] :: ms).flatten.length ≤ 5) (h : Faithful ([commandMag, a] :: ms)) :
    Mergeable ([commandMag, a] :: ms) := by
  have hrest : ms.flatten.length ≤ 3 := by
    simp only [List.flatten_cons, List.length_append, List.length_cons, List.length_nil] at hlen
    omega
  obtain ⟨d', hd', ha⟩ := h 65535 (by decide) (fun _ => 0) _ (callback_mag a ms.flatten hrest)
  have hmag : ∀ q ∈ ms, ∃ b, q = [commandMag, b] := by
    intro q hq
    have hle : 2 + q.length ≤ 5 := length_add_length_le hlen hq
    refine ((hform q hq).short (by omega)).resolve_right fun hq' => ?_
    subst hq'
    have htimer := ha.coreTimer
    rw [coreTimer_of_alive (List.mem_cons_of_mem _ hq) hd'] at htimer
    exact absurd htimer Nat.one_ne_zero
  match ms, hmag with
  | [], _ => exact .single _
  | [q], hmag =>
    obtain ⟨b, rfl⟩ := hmag q List.mem_cons_self
    rw [feed_mag_mag] at hd'
    have hcount := ha.oc3rs
    rw [← Outcome.returned.inj hd'] at hcount
    exact .mag (level_of_dutyCount hcount)
  | q :: q' :: ms', hmag =>
    obtain ⟨b, rfl⟩ := hmag q List.mem_cons_self
    obtain ⟨b', rfl⟩ := hmag q' (List.mem_cons_of_mem _ List.mem_cons_self)
    simp only [List.flatten_cons, List.length_append, List.length_cons] at hrest
    omega

/-- After a keep-alive message, it has at most more of them. -/
theorem mergeable_alive {ms : List (List Byte)} (hform : ∀ q ∈ [commandAlive] :: ms, Form q)
    (hlen : ([commandAlive] :: ms).flatten.length ≤ 5) (h : Faithful ([commandAlive] :: ms)) :
    Mergeable ([commandAlive] :: ms) := by
  have hrest : ms.flatten.length ≤ 4 := by
    simp only [List.flatten_cons, List.length_append, List.length_cons, List.length_nil] at hlen
    omega
  obtain ⟨d', hd', ha⟩ := h 0 (by decide) (fun _ => 0) _ (callback_alive ms.flatten hrest)
  have htext : ∀ q ∈ [commandAlive] :: ms, ¬ IsText q := fun q hq =>
    (hform q hq).not_text ((List.sublist_flatten_of_mem hq).length_le.trans hlen)
  have hall : [commandAlive] :: ms = List.replicate (ms.length + 1) [commandAlive] := by
    refine List.eq_replicate_iff.2 ⟨rfl, fun q hq => ?_⟩
    rcases List.mem_cons.1 hq with rfl | hq'
    · rfl
    · have hle : 1 + q.length ≤ 5 := length_add_length_le hlen hq'
      refine ((hform q hq).short (by omega)).resolve_left ?_
      rintro ⟨b, rfl⟩
      have hon := ha.on
      rw [on_of_mag hq hform htext hd'] at hon
      exact absurd hon (show ¬ (1 : Byte) = 0 by decide)
  rw [hall, List.flatten_replicate_singleton, List.length_replicate] at hlen
  rw [hall]
  exact .alive (Nat.succ_pos _) hlen

/-- A faithful payload of at most five bytes is mergeable. -/
theorem mergeable_short {ms : List (List Byte)} (hform : ∀ q ∈ m :: ms, Form q)
    (hlen : (m :: ms).flatten.length ≤ 5) (h : Faithful (m :: ms)) : Mergeable (m :: ms) := by
  have hform' : ∀ q ∈ ms, Form q := fun q hq => hform q (List.mem_cons_of_mem _ hq)
  rcases (hform m List.mem_cons_self).cases_text with ht | ⟨a, rfl⟩ | rfl | ⟨v, -, hv⟩
  · have hle := (List.sublist_flatten_of_mem (List.mem_cons_self (a := m) (l := ms))).length_le
    exact absurd ht ((hform m List.mem_cons_self).not_text (hle.trans hlen))
  · exact mergeable_mag hform' hlen h
  · exact mergeable_alive hform hlen h
  · -- a frequency message leaves no room
    match ms, hform', hlen with
    | [], _, _ => exact .single m
    | q :: ms', hform', hlen =>
      have hle := length_add_length_le hlen List.mem_cons_self
      have hne := List.length_pos_iff.2 (hform' q List.mem_cons_self).ne_nil
      omega

/-- **No other payload** of several messages is handled as they are one by one. -/
theorem mergeable_of_faithful (hne : g ≠ []) (hform : ∀ q ∈ g, Form q) (h : Faithful g) :
    Mergeable g := by
  match g, hne with
  | [m], _ => exact .single m
  | m :: q :: ms, _ =>
    by_cases hlen : (m :: q :: ms).flatten.length ≤ 5
    · exact mergeable_short hform hlen h
    · exact absurd h (not_faithful_long hform (List.cons_ne_nil _ _) (by omega))

end Probe

end TPadFire.Host
