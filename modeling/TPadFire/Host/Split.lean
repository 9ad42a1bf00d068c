import TPadFire.Host.Merge

/-!
# A message cut into several payloads

Whatever the message and wherever it is cut, there are a device state and a content of the receive
buffer from which the payloads do not do what the message does (`not_alike_split`). The level of a
cut magnitude message, or the highest byte of a cut frequency, is taken from the receive buffer
(`splits_mag`, `splits_freq`); no part of a texture is as long as the texture (`splits_text`).
-/

namespace TPadFire.Host

open Firmware

variable {m : List Byte} {ps : List (List Byte)} {d d' : Device} {rx : RecvBuffer}

/-- The payloads `ps` are what the message `m` is cut into. -/
structure Splits (ps : List (List Byte)) (m : List Byte) : Prop where
  flatten : ps.flatten = m
  nonempty : ∀ q ∈ ps, q ≠ []
  several : 2 ≤ ps.length

/-- From some device and receive buffer, the payloads do not do what the message does. -/
def Separated (ps : List (List Byte)) (m : List Byte) : Prop :=
  ∃ d rx, ¬ (feed ps ⟨d, rx⟩).Rel Device.Alike (feed [m] ⟨d, rx⟩)

theorem Splits.length_lt (h : Splits ps m) {q : List Byte} (hq : q ∈ ps) :
    q.length < m.length := by
  obtain ⟨l, r, rfl⟩ := List.append_of_mem hq
  obtain ⟨q', hq', hmem⟩ : ∃ q', q' ∈ l ++ r ∧ q' ∈ l ++ q :: r := by
    have hsome := h.several
    rw [List.length_append, List.length_cons] at hsome
    obtain ⟨q', hq'⟩ := List.exists_mem_of_length_pos (l := l ++ r)
      (by rw [List.length_append]; omega)
    exact ⟨q', hq', by
      rw [List.mem_append] at hq' ⊢
      exact hq'.imp_right (List.mem_cons_of_mem _)⟩
  have hpos := List.length_pos_iff.2 (h.nonempty q' hmem)
  have hle := (List.sublist_flatten_of_mem hq').length_le
  rw [← h.flatten, List.flatten_append, List.flatten_cons]
  simp only [List.flatten_append, List.length_append] at hle ⊢
  omega

/-- The first payload begins as the message does. -/
theorem Splits.head {id : Byte} {rest : List Byte} (h : Splits ps (id :: rest)) :
    ∃ tail qs, ps = (id :: tail) :: qs := by
  match ps, h with
  | [], h => exact absurd h.several (by decide)
  | [] :: _, h => exact absurd rfl (h.nonempty [] List.mem_cons_self)
  | (a :: tail) :: qs, h =>
    have hflat := h.flatten
    rw [List.flatten_cons, List.cons_append, List.cons.injEq] at hflat
    exact ⟨tail, qs, by rw [hflat.1]⟩

theorem not_splits_alive : ¬ Splits ps [commandAlive] := by
  intro h
  obtain ⟨tail, qs, rfl⟩ := h.head
  exact absurd (h.length_lt List.mem_cons_self) (by simp)

/-! ## Textures -/

/-- A part of a texture leaves no half of the length of the texture. -/
theorem splits_text {body : List Byte} (hmax : body.length ≤ 1000) (h5 : 5 ≤ body.length)
    (h : Splits ps (commandText :: body)) : Separated ps (commandText :: body) := by
  refine ⟨probe 0, fun _ => 0, fun hrel => ?_⟩
  rw [feed_singleton, callback_text h5] at hrel
  obtain ⟨d', hd', ha⟩ := hrel.returned_of
  have hlength : ∀ s, d'.tBuff.length s ≠ body.length := by
    refine feed_preserves (I := fun d => ∀ s, d.tBuff.length s ≠ body.length)
      (fun q hq rx d d' hd hcall s => ?_) (fun s => ?_) hd'
    · have hlt := h.length_lt hq
      rcases adbCallback_tBuff hcall with ⟨hn, -, rfl⟩ | ⟨v, -, hv⟩
      · rcases handleTexture_length (rawData (receive q rx)) (q.length - 1) d s with hl | ⟨-, hl⟩
        · rw [hl, loadLength_eq]
          rw [List.length_cons] at hlt
          omega
        · rw [hl]
          exact hd s
      · rw [hv]
        exact hd s
    · change (0 : ℤ) ≠ body.length
      omega
  refine hlength .buff1 ?_
  rw [ha.length, handleTexture_probe]
  change loadLength body.length = body.length
  rw [loadLength_eq, maxBufferLength]
  omega

/-! ## Magnitudes -/

theorem Splits.mag {b : Byte} (h : Splits ps [commandMag, b]) : ps = [[commandMag], [b]] := by
  obtain ⟨tail, qs, rfl⟩ := h.head
  obtain rfl : tail = [] := by
    have hlt := h.length_lt List.mem_cons_self
    simp only [List.length_cons, List.length_nil] at hlt
    exact List.length_eq_zero_iff.1 (by omega)
  match qs, h with
  | [], h => exact absurd h.several (by decide)
  | q :: qs', h =>
    have hflat := h.flatten
    simp only [List.flatten_cons, List.singleton_append, List.cons.injEq, true_and] at hflat
    rcases List.append_eq_singleton_iff.1 hflat with ⟨hq, -⟩ | ⟨rfl, hnil⟩
    · exact absurd hq (h.nonempty q (List.mem_cons_of_mem _ List.mem_cons_self))
    · match qs', hnil, h with
      | [], _, _ => rfl
      | r :: _, hnil, h =>
        exact absurd (List.flatten_eq_nil_iff.1 hnil r List.mem_cons_self)
          (h.nonempty r (List.mem_cons_of_mem _ (List.mem_cons_of_mem _ List.mem_cons_self)))

/-- The level of a cut magnitude message is the one in the receive buffer. -/
theorem splits_mag {b : Byte} (h : Splits ps [commandMag, b]) : Separated ps [commandMag, b] := by
  obtain rfl := h.mag
  obtain ⟨x, hx⟩ : ∃ x : Byte, ¬ (x = b ∨ (x.toNat < 6 ∧ b.toNat < 6)) := by
    by_cases hb : b.toNat < 6
    · refine ⟨255, ?_⟩
      rintro (rfl | ⟨h255, -⟩)
      · exact absurd hb (by decide)
      · exact absurd h255 (by decide)
    · refine ⟨0, ?_⟩
      rintro (rfl | ⟨-, hb'⟩)
      · exact hb (by decide)
      · exact hb hb'
  refine ⟨probe 65535, fun _ => x, fun hrel => hx ?_⟩
  rw [feed_singleton, callback_mag b [] (Nat.zero_le 3), feed] at hrel
  obtain ⟨d', hd', ha⟩ := hrel.returned_of
  obtain ⟨d₁, h₁, h₂⟩ := Outcome.bind_eq_returned.1 hd'
  rw [feed_singleton] at h₂
  have hfirst : d₁.pr2 = 65535 ∧ d₁.oc3rs = dutyCount 65536 (levelDuty x) := by
    rw [callback_magByte] at h₁
    rw [← Outcome.returned.inj h₁]
    exact ⟨rfl, rfl⟩
  have hlevel : receive [b] (receive [commandMag] fun _ => x) 1 = x :=
    (receive_of_le _ (by simp)).trans (receive_of_le _ (by simp))
  have hlast : d'.oc3rs = dutyCount 65536 (levelDuty x) := by
    rcases adbCallback_oc3rs h₂ with hsame | hset
    · exact hsame.trans hfirst.2
    · rw [hset, hfirst.1, hlevel]
  exact level_of_dutyCount (hlast.symm.trans ha.oc3rs)

/-! ## Frequencies -/

/-- Four bytes with the highest below 128 stand for a number with that highest byte. -/
theorem intFromBytes_mem {p : RawData} (h : (p 3).toNat < 128) :
    2 ^ 24 * (p 3).toNat ≤ intFromBytes p ∧ intFromBytes p < 2 ^ 24 * ((p 3).toNat + 1) := by
  have h0 := (p 0).toNat_lt
  have h1 := (p 1).toNat_lt
  have h2 := (p 2).toNat_lt
  rw [intFromBytes, signed_of_mem (by omega) (by omega)]
  omega

/-- What holds of the PWM periods of all frequencies with a highest byte. -/
def ForTop (Q : ℕ → Prop) (top : Byte) : Prop :=
  ∀ z : ℤ, 2 ^ 24 * top.toNat ≤ z → z < 2 ^ 24 * (top.toNat + 1) →
    Q (storePeriod (sysFreq.tdiv z - 1))

theorem forTop_low : ForTop (· ≤ 1) 1 := by
  intro z hlow hhigh
  have htop : (1 : Byte).toNat = 1 := rfl
  rw [htop] at hlow hhigh
  have hdiv : sysFreq.tdiv z = sysFreq / z := Int.tdiv_eq_ediv_of_nonneg (by decide)
  have hge : 1 ≤ sysFreq / z := by
    rw [Int.le_ediv_iff_mul_le (by omega), sysFreq]
    omega
  have hlt : sysFreq / z < 3 := by
    rw [Int.ediv_lt_iff_lt_mul (by omega), sysFreq]
    omega
  have hstore := storePeriod_pred (z := sysFreq / z) hge (by omega)
  rw [hdiv]
  omega

theorem forTop_high : ForTop (· = 65535) 127 := by
  intro z hlow hhigh
  have htop : (127 : Byte).toNat = 127 := rfl
  rw [htop] at hlow
  have hdiv : sysFreq.tdiv z = 0 := by
    rw [Int.tdiv_eq_ediv_of_nonneg (by decide)]
    exact Int.ediv_eq_zero_of_lt (by decide) (by rw [sysFreq]; omega)
  rw [hdiv]
  rfl

section Top

variable {top : Byte} {Q : ℕ → Prop} {q : List Byte}

/-- Short payloads leave the highest byte of a frequency alone. -/
theorem rawData_receive_three (hq : q.length ≤ 4) : rawData (receive q rx) 3 = rawData rx 3 :=
  receive_of_le (i := (3 : Fin 4095).succ) rx hq

/-- A payload of at most four bytes, with the highest byte of a frequency behind it. -/
theorem callback_top (hpos : 0 < top.toNat) (hlt : top.toNat < 128) (hQ : ForTop Q top)
    (hq : q.length ≤ 4) (hrx : rawData rx 3 = top)
    (hd : Q d.pr2 ∨ ∃ tail, q = commandFreq :: tail) :
    ∃ d', adbCallback (receive q rx) q.length d = .returned d' ∧ Q d'.pr2 := by
  by_cases hfreq : ∃ tail, q = commandFreq :: tail
  · obtain ⟨tail, rfl⟩ := hfreq
    have htop : rawData (receive (commandFreq :: tail) rx) 3 = top := by
      rw [rawData_receive_three hq, hrx]
    obtain ⟨hlow, hhigh⟩ := intFromBytes_mem (p := rawData (receive (commandFreq :: tail) rx))
      (by rwa [htop])
    rw [htop] at hlow hhigh
    obtain ⟨z, hz⟩ : ∃ z, intFromBytes (rawData (receive (commandFreq :: tail) rx)) = z := ⟨_, rfl⟩
    rw [hz] at hlow hhigh
    rw [adbCallback_freq (by simp) (by omega) (receive_zero _ _ _),
      handleFreq_returned hz (by omega)]
    exact ⟨_, rfl, hQ z hlow hhigh⟩
  · have hnot : ¬ (1 ≤ q.length ∧ q.length ≤ 5 ∧ receive q rx 0 = commandFreq) := by
      rintro ⟨h1, -, hid⟩
      exact hfreq (cons_of_receive_zero (List.length_pos_iff.1 h1) hid)
    obtain ⟨d', hd'⟩ := adbCallback_returns (d := d) hnot
    refine ⟨d', hd', ?_⟩
    rcases adbCallback_pr2 hd' with hsame | ⟨h1, h5, hid, -⟩
    · rw [hsame]
      exact hd.resolve_right hfreq
    · exact absurd ⟨h1, h5, hid⟩ hnot

/-- The highest byte of a cut frequency message is the one in the receive buffer. -/
theorem feed_top (hpos : 0 < top.toNat) (hlt : top.toNat < 128) (hQ : ForTop Q top) {v : List Byte}
    (hv : v.length = 4) (h : Splits ps (commandFreq :: v)) (d : Device) :
    ∃ d', feed ps ⟨d, fun _ => top⟩ = .returned d' ∧ Q d'.pr2 := by
  have hlen (q : List Byte) (hq : q ∈ ps) : q.length ≤ 4 := by
    have hlt := h.length_lt hq
    rw [List.length_cons, hv] at hlt
    omega
  obtain ⟨tail, qs, rfl⟩ := h.head
  have htop : rawData (fun _ => top) 3 = top := rfl
  obtain ⟨d₁, hcall, hd₁⟩ := callback_top (d := d) hpos hlt hQ (hlen _ List.mem_cons_self) htop
    (.inr ⟨tail, rfl⟩)
  obtain ⟨b, hb, -, hQb⟩ : ∃ b : Board, feed qs ⟨d₁, receive (commandFreq :: tail) fun _ => top⟩ =
      .returned b.dev ∧ rawData b.rx 3 = top ∧ Q b.dev.pr2 := by
    refine feed_returns (I := fun b : Board => rawData b.rx 3 = top ∧ Q b.dev.pr2)
      (fun q hq b hb => ?_) ⟨rawData_receive_three (hlen _ List.mem_cons_self), hd₁⟩
    have hq' := hlen q (List.mem_cons_of_mem _ hq)
    obtain ⟨d', hd', hQ'⟩ := callback_top hpos hlt hQ hq' hb.1 (.inl hb.2)
    exact ⟨d', hd', (rawData_receive_three hq').trans hb.1, hQ'⟩
  exact ⟨b.dev, by rw [feed, hcall, Outcome.returned_bind, hb], hQb⟩

end Top

/-- A cut frequency message sets different periods where the whole one sets one. -/
theorem splits_freq {v : List Byte} (hv : v.length = 4) (h : Splits ps (commandFreq :: v)) :
    Separated ps (commandFreq :: v) := by
  by_contra hnot
  have hrel (rx : RecvBuffer) : (feed ps ⟨boot, rx⟩).Rel Device.Alike
      (feed [commandFreq :: v] ⟨boot, rx⟩) :=
    not_not.1 fun hrel => hnot ⟨boot, rx, hrel⟩
  obtain ⟨q, hq⟩ := pr2_of_freq (g := [commandFreq :: v]) List.mem_cons_self
    (by simpa using Form.freq hv)
  have hperiod {top : Byte} {Q : ℕ → Prop} (hpos : 0 < top.toNat) (hlt : top.toNat < 128)
      (hQ : ForTop Q top) : Q q := by
    obtain ⟨d₁, hd₁, hQ₁⟩ := feed_top hpos hlt hQ hv h boot
    obtain ⟨d', hd', ha⟩ := (hd₁ ▸ hrel fun _ => top).of_returned
    rw [← hq _ _ _ hd', ← ha.pr2]
    exact hQ₁
  have hlow : q ≤ 1 := hperiod (by decide) (by decide) forTop_low
  have hhigh : q = 65535 := hperiod (by decide) (by decide) forTop_high
  omega

/-! ## Every message -/

/-- **A message that is cut** is somewhere not decoded as the whole message. -/
theorem not_alike_split (hm : Form m) (h : Splits ps m) : Separated ps m := by
  cases hm with
  | mag b => exact splits_mag h
  | freq hv => exact splits_freq hv h
  | alive => exact absurd h not_splits_alive
  | text h5 hmax => exact splits_text hmax h5 h

end TPadFire.Host
