import TPadFire.Adb.Wire

/-!
# Damaged packets

What the checks of `adb_packet.c` see of a packet that was changed on its way. `damaged_iff` decides
it for every change of one word of the header or of one byte of the data: a changed command, magic
or byte of data is never accepted; a changed argument always is, as the checksum does not cover it.

A changed length also changes what is read: the receiving end asks for so many bytes, and
`usb_host.c` ends the read when they have come or with a short packet (`usbRead`). What it makes of
a packet that is longer than what is left to read is up to the controller, which cuts it or reports
an error; here it is a parameter.
-/

namespace TPadFire.Adb

open Firmware (Byte adbPacketMaxRecvDataBytes receive)

/-! ## The checksum -/

theorem toNat_foldl_checksum (data : List Byte) (s : UInt32) :
    (data.foldl (fun sum b => sum + b.toUInt32) s).toNat =
      (s.toNat + (data.map UInt8.toNat).sum) % 2 ^ 32 := by
  induction data generalizing s with
  | nil => exact (Nat.mod_eq_of_lt s.toNat_lt).symm
  | cons b data ih =>
    rw [List.foldl_cons, ih, UInt32.toNat_add, UInt8.toNat_toUInt32, List.map_cons, List.sum_cons]
    omega

theorem toNat_adbChecksum (data : List Byte) :
    (Packet.adbChecksum data).toNat = (data.map UInt8.toNat).sum % 2 ^ 32 := by
  unfold Packet.adbChecksum
  rw [toNat_foldl_checksum, show (0 : UInt32).toNat = 0 from rfl, Nat.zero_add]

/-- **A changed byte changes the checksum.** -/
theorem adbChecksum_set {data : List Byte} {i : ℕ} (hi : i < data.length) {b : Byte}
    (hb : b ≠ data[i]) : Packet.adbChecksum (data.set i b) ≠ Packet.adbChecksum data := by
  intro heq
  have hnat := congrArg UInt32.toNat heq
  rw [toNat_adbChecksum, toNat_adbChecksum, List.map_set] at hnat
  have hset : ((data.map UInt8.toNat).set i b.toNat).sum + data[i].toNat =
      (data.map UInt8.toNat).sum + b.toNat := by
    clear hnat heq hb
    induction data generalizing i with
    | nil => exact absurd hi (Nat.not_lt_zero _)
    | cons c data ih =>
      cases i with
      | zero =>
        simp only [List.map_cons, List.set_cons_zero, List.sum_cons, List.getElem_cons_zero]
        omega
      | succ i =>
        have hrest := ih (Nat.lt_of_succ_lt_succ hi)
        simp only [List.map_cons, List.set_cons_succ, List.sum_cons, List.getElem_cons_succ]
        omega
  have hlt := b.toNat_lt
  have hlt' := data[i].toNat_lt
  exact hb (UInt8.toNat_inj.1 (by omega))

/-- **Zeros do not change the checksum**, and all else does. -/
theorem adbChecksum_take {data : List Byte} (hlen : data.length ≤ adbPacketMaxRecvDataBytes)
    (n : ℕ) : Packet.adbChecksum (data.take n) = Packet.adbChecksum data ↔
      ∀ b ∈ data.drop n, b = 0 := by
  have hsum : (data.map UInt8.toNat).sum =
      ((data.take n).map UInt8.toNat).sum + ((data.drop n).map UInt8.toNat).sum := by
    rw [← List.sum_append, ← List.map_append, List.take_append_drop]
  have hlt : ((data.drop n).map UInt8.toNat).sum < 2 ^ 32 := by
    have hle : ((data.drop n).map UInt8.toNat).sum ≤ ((data.drop n).map UInt8.toNat).length • 255 :=
      List.sum_le_card_nsmul _ _ fun k hk => by
        obtain ⟨b, -, rfl⟩ := List.mem_map.1 hk
        exact Nat.le_of_lt_succ b.toNat_lt
    rw [List.length_map, List.length_drop, nsmul_eq_mul, Nat.cast_id] at hle
    rw [adbPacketMaxRecvDataBytes] at hlen
    omega
  have hzero : ((data.drop n).map UInt8.toNat).sum = 0 ↔ ∀ b ∈ data.drop n, b = 0 := by
    rw [List.sum_eq_zero_iff, List.forall_mem_map]
    exact forall₂_congr fun b _ => ⟨fun h => UInt8.toNat_inj.1 h, fun h => h ▸ rfl⟩
  rw [← hzero, ← UInt32.toNat_inj, toNat_adbChecksum, toNat_adbChecksum, hsum]
  omega

/-! ## What is read -/

/-- The packets of one transfer of the other end: all but the last have the size of the endpoint. -/
inductive Packets (size : ℕ) : List (List Byte) → Prop
  | nil : Packets size []
  | last {l : List Byte} (hl : l.length ≤ size) : Packets size [l]
  | cons {l : List Byte} {ps : List (List Byte)} (hl : l.length = size) (hps : Packets size ps) :
      Packets size (l :: ps)

/-- A read of `n` bytes of packets `ps` from an endpoint with packets of `size` bytes. It ends with
a packet that is shorter or when `n` bytes have come; until then it goes on. A packet that is longer
than what is left to read is cut, with or without an error (`cut`). -/
def usbRead (size : ℕ) (cut : Bool) : ℕ → List (List Byte) → Option (Bool × List Byte)
  | _, [] => none
  | n, l :: ps =>
    if n < l.length then some (cut, l.take n)
    else if l.length < size ∨ l.length = n then some (true, l)
    else (usbRead size cut (n - l.length) ps).map fun r => (r.1, l ++ r.2)

section Read

variable {size n : ℕ} {cut : Bool} {ps : List (List Byte)} {l l₁ : List Byte}

/-- A packet that is longer than what is left to read. -/
theorem usbRead_cut (hn : 0 < n) (hlt : n < l₁.length) (hle : l₁.length ≤ size) :
    usbRead size cut n (l₁ :: ps) = some (true, l) ∧ l.length = n ↔
      l = (l₁ ++ ps.flatten).take n ∧ n ≤ (l₁ ++ ps.flatten).length ∧
        (size ∣ n ∨ n = (l₁ ++ ps.flatten).length ∨ cut = true) := by
  rw [usbRead, if_pos hlt, List.take_append_of_le_length hlt.le, List.length_append]
  have hdvd : ¬ size ∣ n := fun h => absurd (Nat.le_of_dvd hn h) (by omega)
  constructor
  · rintro ⟨heq, -⟩
    obtain ⟨hcut, rfl⟩ := Prod.mk.inj (Option.some.inj heq)
    exact ⟨rfl, by omega, .inr (.inr hcut)⟩
  · rintro ⟨rfl, -, h | h | hcut⟩
    · exact absurd h hdvd
    · omega
    · rw [hcut, List.length_take]
      exact ⟨rfl, by omega⟩

/-- A packet that is all that is left to read. -/
theorem usbRead_last (hl : l₁.length = n) (hend : size = n ∨ ps = []) :
    usbRead size cut n (l₁ :: ps) = some (true, l) ∧ l.length = n ↔
      l = (l₁ ++ ps.flatten).take n ∧ n ≤ (l₁ ++ ps.flatten).length ∧
        (size ∣ n ∨ n = (l₁ ++ ps.flatten).length ∨ cut = true) := by
  rw [usbRead, if_neg (by omega), if_pos (.inr hl), List.take_left' hl, List.length_append]
  constructor
  · rintro ⟨heq, -⟩
    obtain rfl := (Prod.mk.inj (Option.some.inj heq)).2
    refine ⟨rfl, by omega, ?_⟩
    rcases hend with rfl | rfl
    · exact .inl (dvd_refl _)
    · exact .inr (.inl (by simp [hl]))
  · rintro ⟨rfl, -, -⟩
    exact ⟨rfl, hl⟩

/-- **What a read brings**: the bytes that are asked for, if there are so many and the read ends
with a packet. -/
theorem usbRead_iff (hps : Packets size ps) (hn : 0 < n) :
    usbRead size cut n ps = some (true, l) ∧ l.length = n ↔
      l = ps.flatten.take n ∧ n ≤ ps.flatten.length ∧
        (size ∣ n ∨ n = ps.flatten.length ∨ cut = true) := by
  induction hps generalizing n l with
  | nil =>
    refine iff_of_false (fun h => Option.some_ne_none _ h.1.symm) fun h => ?_
    exact absurd h.2.1 (not_le.2 hn)
  | @last l₁ hl =>
    rw [List.flatten_cons]
    rcases lt_trichotomy n l₁.length with hlt | heq | hgt
    · exact usbRead_cut hn hlt hl
    · exact usbRead_last heq.symm (.inr rfl)
    · -- the read ends with the short packet, or goes on
      refine iff_of_false ?_ fun h => absurd h.2.1 (by simpa using hgt)
      rintro ⟨heq, rfl⟩
      rw [usbRead, if_neg (by omega)] at heq
      split_ifs at heq
      · obtain rfl := (Prod.mk.inj (Option.some.inj heq)).2
        exact lt_irrefl _ hgt
      · cases heq
  | @cons l₁ ps hl hps ih =>
    rw [List.flatten_cons]
    rcases lt_trichotomy n l₁.length with hlt | heq | hgt
    · exact usbRead_cut hn hlt hl.le
    · exact usbRead_last heq.symm (.inl (hl.symm.trans heq.symm))
    · -- the read goes on with the next packet
      rw [usbRead, if_neg (by omega), if_neg (by omega), List.take_append, List.length_append,
        List.take_of_length_le hgt.le]
      have hdvd : size ∣ n ↔ size ∣ n - l₁.length := by
        have hadd : size ∣ size + (n - l₁.length) ↔ size ∣ n - l₁.length :=
          Nat.dvd_add_right (dvd_refl size)
        rwa [show size + (n - l₁.length) = n by omega] at hadd
      constructor
      · rintro ⟨heq, rfl⟩
        obtain ⟨⟨ok, l₂⟩, hr, heq'⟩ := Option.map_eq_some_iff.1 heq
        obtain ⟨rfl, rfl⟩ := Prod.mk.inj heq'
        rw [List.length_append] at hdvd hr hn hgt ⊢
        rw [Nat.add_sub_cancel_left] at hdvd hr ⊢
        obtain ⟨h1, h2, h3⟩ := (ih (by omega)).1 ⟨hr, rfl⟩
        refine ⟨by rw [← h1], by omega, ?_⟩
        exact h3.imp hdvd.2 (Or.imp_left fun h => by omega)
      · rintro ⟨rfl, hle, h⟩
        have h' := h.imp hdvd.1 (Or.imp_left (b := n - l₁.length = ps.flatten.length)
          fun h => by omega)
        obtain ⟨hr, hlen⟩ := (ih (by omega)).2 ⟨rfl, by omega, h'⟩
        rw [hr, List.length_append, hlen]
        exact ⟨rfl, by omega⟩

end Read

/-! ## What is accepted -/

/-- A transfer in has come as far as `r`, and the next one starts. -/
def answer (r : Option (Bool × List Byte)) : Transfers := ⟨true, none, true, r⟩

/-- A transfer in ends with the bytes `l`, and the next one starts. -/
def reading (l : List Byte) : Transfers := answer (some (true, l))

namespace Packet

variable {p : Packet} {hd : Header} {size : ℕ} {cut : Bool} {ps : List (List Byte)}

/-- The receiving end accepts the transfer `h` as the header of a packet, and what it then reads of
the packets `ps` as its data. -/
def accepts (size : ℕ) (cut : Bool) (p : Packet) (h : List Byte) (ps : List (List Byte)) : Bool :=
  let p := p.recvTasks (reading h)
  (p.recvTasks (answer (usbRead size cut p.recvHeader.dataLength.toNat ps))).recvState = .idle

theorem recvTasks_reading (hs : p.recvState = .waitHeader) :
    p.recvTasks (reading hd.toBytes) = { p with
      recvHeader := hd
      recvState :=
        if hd.command ≠ ~~~hd.magic ∨ hd.dataLength.toNat > adbPacketMaxRecvDataBytes then .error
        else if hd.dataLength = (0 : UInt32) then .idle
        else .waitData } := by
  unfold recvTasks reading answer
  simp only [hs, Header.ofBytes_toBytes, Header.length_toBytes, Bool.not_true, Bool.false_eq_true,
    if_false, ne_eq, not_true_eq_false, false_or, if_true]
  split_ifs <;> rfl

theorem recvTasks_answer (hs : p.recvState = .waitData)
    (hlen : p.recvHeader.dataLength.toNat ≤ adbPacketMaxRecvDataBytes)
    {r : Option (Bool × List Byte)} : (p.recvTasks (answer r)).recvState = .idle ↔
      ∃ l, r = some (true, l) ∧ l.length = p.recvHeader.dataLength.toNat ∧
        adbChecksum l = p.recvHeader.dataCheck := by
  unfold recvTasks answer
  simp only [hs]
  cases r with
  | none =>
    refine iff_of_false (fun h => ?_) fun ⟨l, h, _⟩ => Option.some_ne_none _ h.symm
    cases hs.symm.trans h
  | some r =>
    obtain ⟨ok, l⟩ := r
    dsimp only
    by_cases hbad : !ok ∨ l.length ≠ p.recvHeader.dataLength.toNat
    · rw [if_pos hbad]
      refine iff_of_false PacketState.noConfusion ?_
      rintro ⟨l', heq, hl, -⟩
      obtain ⟨rfl, rfl⟩ := Prod.mk.inj (Option.some.inj heq)
      exact hbad.elim Bool.false_ne_true fun h => h hl
    · obtain ⟨hok, hl⟩ := not_or.1 hbad
      have hok' : ok = true := by simpa using hok
      have hl' : l.length = p.recvHeader.dataLength.toNat := not_not.1 hl
      have hcontents : (receive l p.recvData).contents p.recvHeader.dataLength.toNat = l :=
        hl' ▸ Block.contents_overlay _ (hl' ▸ hlen)
      rw [if_neg hbad, hcontents, hok']
      by_cases hsum : adbChecksum l = p.recvHeader.dataCheck
      · rw [if_neg (not_not.2 hsum)]
        exact iff_of_true rfl ⟨l, rfl, hl', hsum⟩
      · rw [if_pos hsum]
        refine iff_of_false PacketState.noConfusion ?_
        rintro ⟨l', heq, -, hsum'⟩
        obtain rfl := (Prod.mk.inj (Option.some.inj heq)).2
        exact hsum hsum'

/-- **What the receiving end accepts**: a header whose magic fits its command, and data of the
length and the checksum that the header gives, unless the length is zero. -/
theorem accepts_iff (hs : p.recvState = .waitHeader) (hps : Packets size ps) :
    p.accepts size cut hd.toBytes ps = true ↔
      hd.command = ~~~hd.magic ∧ hd.dataLength.toNat ≤ adbPacketMaxRecvDataBytes ∧
        (hd.dataLength = 0 ∨ (hd.dataLength.toNat ≤ ps.flatten.length ∧
          (size ∣ hd.dataLength.toNat ∨ hd.dataLength.toNat = ps.flatten.length ∨ cut = true) ∧
          adbChecksum (ps.flatten.take hd.dataLength.toNat) = hd.dataCheck)) := by
  unfold accepts
  rw [decide_eq_true_iff, recvTasks_reading hs]
  by_cases hbad : hd.command ≠ ~~~hd.magic ∨ hd.dataLength.toNat > adbPacketMaxRecvDataBytes
  · rw [if_pos hbad]
    refine iff_of_false PacketState.noConfusion ?_
    rintro ⟨hmagic, hlen, -⟩
    exact hbad.elim (fun h => h hmagic) (by omega)
  · rw [if_neg hbad]
    obtain ⟨hmagic, hlen⟩ := not_or.1 hbad
    have hlen' : hd.dataLength.toNat ≤ adbPacketMaxRecvDataBytes := Nat.le_of_not_lt hlen
    by_cases hzero : hd.dataLength = (0 : UInt32)
    · rw [if_pos hzero]
      exact iff_of_true rfl ⟨not_not.1 hmagic, hlen', .inl hzero⟩
    · rw [if_neg hzero, and_iff_right (not_not.1 hmagic), and_iff_right hlen', or_iff_right hzero]
      have hpos : 0 < hd.dataLength.toNat :=
        Nat.pos_of_ne_zero fun h => hzero (UInt32.toNat_inj.1 h)
      rw [recvTasks_answer rfl hlen']
      constructor
      · rintro ⟨l, hr, hl, hsum⟩
        obtain ⟨rfl, hle, hend⟩ := (usbRead_iff hps hpos).1 ⟨hr, hl⟩
        exact ⟨hle, hend, hsum⟩
      · rintro ⟨hle, hend, hsum⟩
        obtain ⟨hr, hl⟩ := (usbRead_iff hps hpos).2 ⟨rfl, hle, hend⟩
        exact ⟨_, hr, hl, hsum⟩

end Packet

/-! ## Damage -/

/-- A change of one word of the header or of one byte of the data. -/
inductive Damage
  | command (w : UInt32)
  | arg0 (w : UInt32)
  | arg1 (w : UInt32)
  | dataLength (w : UInt32)
  | dataCheck (w : UInt32)
  | magic (w : UInt32)
  | data (i : ℕ) (b : Byte)

namespace Damage

/-- The header that arrives. -/
def header : Damage → Header → Header
  | command w, hd => { hd with command := w }
  | arg0 w, hd => { hd with arg0 := w }
  | arg1 w, hd => { hd with arg1 := w }
  | dataLength w, hd => { hd with dataLength := w }
  | dataCheck w, hd => { hd with dataCheck := w }
  | magic w, hd => { hd with magic := w }
  | data _ _, hd => hd

/-- The data that the other end sends. -/
def payload : Damage → List Byte → List Byte
  | data i b, l => l.set i b
  | command _, l | arg0 _, l | arg1 _, l | dataLength _, l | dataCheck _, l | magic _, l => l

/-- The damage changes the packet. -/
def Real (m : Message) : Damage → Prop
  | command w => w ≠ m.header.command
  | arg0 w => w ≠ m.header.arg0
  | arg1 w => w ≠ m.header.arg1
  | dataLength w => w ≠ m.header.dataLength
  | dataCheck w => w ≠ m.header.dataCheck
  | magic w => w ≠ m.header.magic
  | data i b => ∃ hi : i < m.data.length, b ≠ m.data[i]

/-- The damage is one that the checks do not cover: that of an argument, of the checksum of a packet
without data, or of a length that leaves out no byte but zeros, if the read can end there. -/
def Uncovered (size : ℕ) (cut : Bool) (m : Message) : Damage → Prop
  | arg0 _ | arg1 _ => True
  | dataLength w => w = 0 ∨ (w.toNat < m.data.length ∧ (size ∣ w.toNat ∨ cut = true) ∧
      ∀ b ∈ m.data.drop w.toNat, b = 0)
  | dataCheck _ => m.data = []
  | command _ | magic _ | data _ _ => False

end Damage

/-- **Which damage is accepted.** A packet of which one word of the header or one byte of the data
was changed is accepted exactly when the change is in an argument, in the checksum of a packet
without data, or in the length, which becomes zero or leaves out zeros at the end, where a read of
that many bytes succeeds. -/
theorem damaged_iff {m : Message} (hm : m.data.length ≤ adbPacketMaxRecvDataBytes) {x : Damage}
    (hx : x.Real m) {size : ℕ} {cut : Bool} {ps : List (List Byte)} (hps : Packets size ps)
    (hsent : ps.flatten = x.payload m.data) {p : Packet} (hp : p.recvState = .waitHeader) :
    p.accepts size cut (x.header m.header).toBytes ps = true ↔ x.Uncovered size cut m := by
  have hmagic : m.header.command = ~~~m.header.magic := (UInt32.not_not ..).symm
  have hlen : m.header.dataLength.toNat ≤ adbPacketMaxRecvDataBytes := toNat_dataLength hm ▸ hm
  have hdata : m.header.dataLength.toNat = m.data.length := toNat_dataLength hm
  rw [Packet.accepts_iff hp hps, hsent]
  -- data of the length that the header gives
  have hwhole {l : List Byte} (hl : l.length = m.data.length) (check : UInt32) :
      (m.header.dataLength.toNat ≤ l.length ∧ (size ∣ m.header.dataLength.toNat ∨
        m.header.dataLength.toNat = l.length ∨ cut = true) ∧
        Packet.adbChecksum (l.take m.header.dataLength.toNat) = check) ↔
      Packet.adbChecksum l = check := by
    rw [hdata, ← hl, List.take_length]
    exact ⟨fun h => h.2.2, fun h => ⟨le_rfl, .inr (.inl rfl), h⟩⟩
  cases x with
  | command w =>
    refine iff_of_false (fun h => hx ?_) id
    exact h.1.trans hmagic.symm
  | arg0 w => exact iff_of_true ⟨hmagic, hlen, .inr ((hwhole rfl _).2 rfl)⟩ trivial
  | arg1 w => exact iff_of_true ⟨hmagic, hlen, .inr ((hwhole rfl _).2 rfl)⟩ trivial
  | dataLength w =>
    have hne : w.toNat ≠ m.data.length := fun h => hx (UInt32.toNat_inj.1 (h.trans hdata.symm))
    dsimp only [Damage.header, Damage.payload, Damage.Uncovered]
    rw [and_iff_right hmagic]
    constructor
    · rintro ⟨-, h | ⟨hle, hend, hsum⟩⟩
      · exact .inl h
      · exact .inr ⟨lt_of_le_of_ne hle hne, hend.imp_right fun h => h.resolve_left hne,
          (adbChecksum_take hm _).1 hsum⟩
    · rintro (h | ⟨hlt, hend, hzeros⟩)
      · exact ⟨by rw [h]; exact Nat.zero_le _, .inl h⟩
      · exact ⟨hlt.le.trans hm, .inr ⟨hlt.le, hend.imp_right .inr,
          (adbChecksum_take hm _).2 hzeros⟩⟩
  | dataCheck w =>
    constructor
    · rintro ⟨-, -, h | h⟩
      · exact (dataLength_eq_zero hm).1 h
      · exact absurd ((hwhole rfl _).1 h).symm hx
    · exact fun h => ⟨hmagic, hlen, .inl ((dataLength_eq_zero hm).2 h)⟩
  | magic w =>
    refine iff_of_false (fun h => hx ?_) id
    have hnot := h.1.symm.trans hmagic
    exact (UInt32.not_inj ..).1 hnot
  | data i b =>
    obtain ⟨hi, hb⟩ := hx
    refine iff_of_false ?_ id
    rintro ⟨-, -, h | h⟩
    · have hnil := (dataLength_eq_zero hm).1 h
      rw [hnil] at hi
      exact absurd hi (Nat.not_lt_zero _)
    · exact adbChecksum_set hi hb ((hwhole (List.length_set ..) _).1 h)

/-- A packet whose data end with a zero. -/
def padded : Message := ⟨0x45545257, 256, 9, [5, 0]⟩

/-- A changed byte is noticed; a length without the zero at the end is not, where the longer packet
is cut. -/
theorem damaged_iff_data :
    (still.far.recvTasks (smooth none)).accepts 64 true
      ((Damage.data 1 7).header greeting.header).toBytes [[5, 7]] = false ∧
    (still.far.recvTasks (smooth none)).accepts 64 true
      ((Damage.dataLength 1).header padded.header).toBytes [[5, 0]] = true := by
  have hdata : (Damage.data 1 7).Real greeting := ⟨by decide, by decide⟩
  have hlength : (Damage.dataLength 1).Real padded := show (1 : UInt32) ≠ 2 by decide
  have huncovered : (Damage.dataLength 1).Uncovered 64 true padded :=
    .inr ⟨by decide, .inr rfl, List.forall_mem_singleton.2 rfl⟩
  constructor
  · refine Bool.eq_false_iff.2 fun h => ?_
    exact (damaged_iff (by decide) hdata (.last (by decide)) rfl rfl).1 h
  · exact (damaged_iff (by decide) hlength (.last (by decide)) rfl rfl).2 huncovered

end TPadFire.Adb
