import TPadFire.Firmware.Filling
import TPadFire.Firmware.Firings

/-!
# A texture swapped in while another is playing

`handleTexture` fills the half that is not in front, sets `Index` to 0 and then switches `Front`. A
firing between these two stores reads sample 0 of the old texture, and leaves an index that counts
in the old texture's length for the new one to start from. `swap_iff` says exactly for which
placements of the firings the samples come out right: up to the switch those of the old texture, on
and round, and after it those of the new texture from its first.
-/

namespace TPadFire.Firmware

open Interruptible

/-- The store `tBuff.Index = 0`. -/
def isClearIndex : Stmt → Bool
  | .clearIndex => true
  | _ => false

/-- The store that switches `Front`. -/
def isFront : Stmt → Bool
  | .front _ => true
  | _ => false

/-- The firings before `Index` is set to 0. -/
def firingsBefore (ls : Trace) : ℕ := (reads (before isClearIndex ls)).length

/-- The firings between the two stores. -/
def firingsBetween (ls : Trace) : ℕ :=
  (reads (before isFront (after isClearIndex ls))).length

/-- The firings after `Front` is switched. -/
def firingsAfter (ls : Trace) : ℕ := (reads (after isFront ls)).length

/-- The samples come out right: up to the switch those of `old` from position `k` on, after it those
of `new` from the first, both round and round. -/
def SwapsCleanly (s : Slot) (old new : List Byte) (k : ℕ) (ls : Trace) : Prop :=
  reads (before isFront ls) =
      streamFrom (cyclic s old) k (reads (before isFront ls)).length ∧
    reads (after isFront ls) =
      streamFrom (cyclic s.other new) 0 (reads (after isFront ls)).length

variable {d : Device} {rx : RecvBuffer} {b b' : Board} {s : Slot} {n : ℕ} {ls : Trace}

/-! ## Segments of a run -/

/-- A statement that leaves the half `s` and `Index` alone while playback is on. -/
def Leaves (s : Slot) (i : Stmt) : Prop := i.Fills s.other ∨ i = .testOn

/-- **The samples of a segment.** While the half in front is left alone, firings read what follows
in it. -/
theorem reads_of_leaves {t : TextureBuff} {j : ℕ} {is js : List Stmt}
    (hrun : firmware.lts.Run ⟨is, b⟩ ls ⟨js, b'⟩) (hc : NoCall ls) (his : ∀ i ∈ is, Leaves s i)
    (h : Follows t s j b.dev) (hon : b.dev.tBuff.on = 1) :
    reads ls = streamFrom (t.readAfter s) j (reads ls).length ∧
      Follows t s (j + (reads ls).length) b'.dev ∧ b'.dev.tBuff.on = 1 ∧
      ∀ i, .main i ∈ ls → Leaves s i := by
  have key := reads_of_run (P := firmware) (f := t.readAfter s) (Q := Leaves s)
    (R := fun j b => Follows t s j b.dev ∧ b.dev.tBuff.on = 1) ?_ ?_ hrun hc his ⟨h, hon⟩
  · exact ⟨key.1, key.2.1.1, key.2.1.2, key.2.2⟩
  · rintro j b r b' ⟨hj, hon⟩ - hisr
    obtain ⟨d', hd', rfl⟩ := firmware_isr hisr
    obtain ⟨hr, hj', v, -, rfl⟩ := hj.isr hd'
    exact ⟨hr, hj', hon⟩
  · rintro j i b js b' hi ⟨hj, hon⟩ hexec
    obtain ⟨rfl, rfl⟩ := exec_some hexec
    rcases hi with hi | rfl
    · obtain ⟨t', ht', hf, hk, hon', ho⟩ := hi.frame b.rx b.dev
      obtain ⟨hl, hb⟩ := ho s (Slot.other_ne s).symm
      refine ⟨⟨?_, ?_⟩, fun i' hi' => .inl (hi.expand b.rx b.dev i' hi')⟩
      · exact hj.congr (by rw [ht', hf]) (by rw [ht', hb]) (by rw [ht', hl]) (by rw [ht', hk])
      · simp only [ht', hon', hon]
    · have hnone : Stmt.expand b.rx b.dev .testOn = [] :=
        if_neg (by rw [hon]; decide)
      exact ⟨⟨hj, hon⟩, by simp [hnone]⟩

/-- While a half is filled, firings do not disturb the filling. -/
theorem filling_run {raw : RawData} {is : List Stmt} (hraw : rawData b.rx = raw)
    (hrun : firmware.lts.Run ⟨is, b⟩ ls ⟨[], b'⟩) (hc : NoCall ls)
    (h : Filling raw n b.dev.tBuff s is) :
    b'.dev.tBuff.Holds s (raw.contents (min n maxBufferLength)) := by
  have key := hrun.invariant_mem (I := fun c => rawData c.mem.rx = raw ∧
    Filling raw n c.mem.dev.tBuff s c.code) ?_ ⟨hraw, h⟩
  · exact key.2.holds
  · rintro c l c' hl ⟨hraw, hfill⟩ hstep
    cases hstep with
    | @call k _ _ _ _ => exact absurd hl (hc k)
    | @main i is js m m' hexec =>
      obtain ⟨rfl, rfl⟩ := exec_some hexec
      subst hraw
      exact ⟨rfl, hfill.main⟩
    | @isr r is m m' he hisr =>
      obtain ⟨d', hd', rfl⟩ := firmware_isr hisr
      obtain ⟨o, k, rfl⟩ := timer3ISR_frame hd'
      exact ⟨hraw, hfill.congr rfl rfl⟩

/-- A run cut at the two stores. -/
theorem cut_at_stores (s : Slot) (rs : List (Option Read)) (ls : Trace) {P : Trace}
    (hclear : ∀ l ∈ P, l.isMain isClearIndex = false) (hfront : ∀ l ∈ P, l.isMain isFront = false) :
    let run : Trace := P ++ .main .clearIndex :: (firings rs ++ .main (.front s) :: ls)
    before isClearIndex run = P ∧ before isFront (after isClearIndex run) = firings rs ∧
      before isFront run = P ++ .main .clearIndex :: firings rs ∧ after isFront run = ls := by
  have hrs : ∀ l ∈ (firings rs : Trace), l.isMain isFront = false :=
    fun l hl => isMain_of_mem_firings hl
  refine ⟨?_, ?_, ?_, ?_⟩
  · rw [before_append hclear, before_main_of rfl, List.append_nil]
  · rw [after_append hclear, after_main_of rfl, before_append hrs, before_main_of rfl,
      List.append_nil]
  · rw [before_append hfront, before_main_of_not rfl, before_append hrs, before_main_of rfl,
      List.append_nil]
  · rw [after_append hfront, after_main_of_not rfl, after_append hrs, after_main_of rfl]

theorem Leaves.not_store {i : Stmt} (h : Leaves s i) :
    isClearIndex i = false ∧ isFront i = false := by
  rcases h with h | rfl
  · cases i <;> first | exact h.elim | exact ⟨rfl, rfl⟩
  · exact ⟨rfl, rfl⟩

/-! ## The handler -/

/-- **The run of `handleTexture`, cut at its two stores.** Up to the first, firings read on in the
buffer as it was. Between them they read the old samples from `Index` 0, in a buffer `t₁`, and after
them the new samples from the index that this leaves, in a buffer `t₂`. -/
theorem swap_run {old : List Byte} (hf : d.tBuff.front = s.byte) (hon : d.tBuff.on = 1)
    (hold : d.tBuff.Holds s old)
    (hrun : firmware.lts.Run ⟨[.testFront n], ⟨d, rx⟩⟩ ls ⟨[], b'⟩) (hc : NoCall ls) :
    ∃ (P : Trace) (rs : List (Option Read)) (l : Trace) (t₁ t₂ : TextureBuff),
      ls = P ++ .main .clearIndex :: (firings rs ++ .main (.front s.other) :: l) ∧
      (∀ i, .main i ∈ P → isClearIndex i = false ∧ isFront i = false) ∧
      reads P = streamFrom (d.tBuff.readAfter s) 0 (reads P).length ∧
      (t₁.Holds s old ∧ t₁.index = 0 ∧ rs = streamFrom (t₁.readAfter s) 0 rs.length) ∧
      t₂.Holds s.other ((rawData rx).contents (min n maxBufferLength)) ∧
      t₂.index = t₁.indexAfter s rs.length ∧
      reads l = streamFrom (t₂.readAfter s.other) 0 (reads l).length := by
  have hnil : ∀ i ∈ ([] : List Stmt), Leaves s i := fun _ h => absurd h List.not_mem_nil
  -- the test on `Front`
  obtain ⟨f₀, b₀, l₁, rfl, hf₀, hu₀, h₁⟩ := run_statement hrun
  obtain ⟨hr₀, hfol₀, hon₀, -⟩ := reads_of_leaves hf₀ hc.left hnil (follows_zero hf) hon
  rw [Stmt.expand, textureCode_of_front hfol₀.front, List.append_nil] at h₁
  -- the half that is not in front is filled
  have hc₁ := hc.right.tail
  obtain ⟨lA, lB, bA, rfl, hA, hB⟩ := run_append_code
    [.loadLength s.other n, .memmove s.other] [.clearIndex, .front s.other, .testOn] h₁ hc₁
  obtain ⟨hrA, hfolA, honA, hmainA⟩ := reads_of_leaves hA hc₁.left
    (by simp [Leaves, Stmt.Fills]) hfol₀ hon₀
  have hnew := filling_run (congrArg rawData hu₀.rx) hA hc₁.left .length
  -- `Index` is set to 0
  have hc₂ := hc₁.right
  obtain ⟨f₁, bC, l₂, rfl, hf₁, hu₁, h₂⟩ := run_statement hB
  obtain ⟨hr₁, hfol₁, hon₁, -⟩ := reads_of_leaves hf₁ hc₂.left hnil hfolA honA
  -- `Front` is switched
  have hc₃ := hc₂.right.tail
  obtain ⟨f₂, bF, l₃, rfl, hf₂, hu₂, h₃⟩ := run_statement h₂
  have hzero : Follows { bC.dev.tBuff with index := 0 } s 0
      { bC.dev with tBuff := { bC.dev.tBuff with index := 0 } } :=
    ⟨hfol₁.front, rfl, rfl, rfl⟩
  obtain ⟨hr₂, hfol₂, hon₂, -⟩ := reads_of_leaves hf₂ hc₃.left hnil hzero hon₁
  -- the rest of the handler
  have hfirst : Follows { bF.dev.tBuff with front := s.other.byte } s.other 0
      { bF.dev with tBuff := { bF.dev.tBuff with front := s.other.byte } } :=
    ⟨rfl, rfl, rfl, rfl⟩
  obtain ⟨hr₃, -, -, -⟩ :=
    reads_of_leaves h₃ hc₃.right.tail (by simp [Leaves, Stmt.expand]) hfirst hon₂
  refine ⟨firings f₀ ++ .main (.testFront n) :: (lA ++ firings f₁), f₂, l₃,
    { bC.dev.tBuff with index := 0 }, { bF.dev.tBuff with front := s.other.byte }, by simp, ?_, ?_,
    ⟨hold.congr hfol₁.length hfol₁.buff, rfl, by simpa using hr₂⟩, ?_, ?_, hr₃⟩
  · intro i hi
    have hmain : i = .testFront n ∨ .main i ∈ lA := by
      simpa [firings] using hi
    rcases hmain with rfl | hi
    · exact ⟨rfl, rfl⟩
    · exact (hmainA i hi).not_store
  · simp only [reads_append, reads_firings, reads_main, List.length_append, streamFrom_add,
      Nat.zero_add] at hr₀ hrA hr₁ ⊢
    rw [← hr₀, ← hrA, ← hr₁]
  · have hnew₁ := hnew.congr (congrFun hu₁.length _) (congrFun hu₁.buff _)
    have hnew₂ := hnew₁.congr (congrFun hu₂.length _) (congrFun hu₂.buff _)
    exact hnew₂.congr rfl rfl
  · simpa using hfol₂.index

theorem append_eq_streamFrom_iff {α : Type*} {f : ℕ → α} {a : ℕ} {l l' : List α} :
    l ++ l' = streamFrom f a (l ++ l').length ↔
      l = streamFrom f a l.length ∧ l' = streamFrom f (a + l.length) l'.length := by
  rw [List.length_append, streamFrom_add]
  constructor
  · intro h
    exact List.append_inj h (by simp)
  · rintro ⟨h, h'⟩
    rw [← h, ← h']

/-- **When a texture swapped in starts clean.** A texture `old` is in front, at index `k`, and
playback is on; `handleTexture` is called for `n` new samples. The samples come out right exactly
when the index was within the old texture at the first firing, if there is one before `Index` is set
to 0; the old texture was just at its first sample then, if there is a firing between the two
stores; and the firings between them came round to that sample again, if there is one after. -/
theorem swap_iff {old : List Byte} {k : ℕ} (hf : d.tBuff.front = s.byte) (hon : d.tBuff.on = 1)
    (hold : d.tBuff.Holds s old) (hk : d.tBuff.index = k) (hpos : 0 < old.length) (h5 : 5 ≤ n)
    (hmax : n ≤ maxBufferLength)
    (hrun : firmware.lts.Run ⟨[.testFront n], ⟨d, rx⟩⟩ ls ⟨[], b'⟩) (hc : NoCall ls) :
    SwapsCleanly s old ((rawData rx).contents n) k ls ↔
      (firingsBefore ls = 0 ∨ k < old.length) ∧
      (firingsBetween ls = 0 ∨ old.length ∣ k + firingsBefore ls) ∧
      (firingsAfter ls = 0 ∨ old.length ∣ firingsBetween ls) := by
  obtain ⟨P, rs, l, t₁, t₂, rfl, hmain, hP, ⟨ht₁, hi₁, hrs⟩, ht₂, hi₂, hl⟩ :=
    swap_run hf hon hold hrun hc
  rw [min_eq_left hmax] at ht₂
  have hnew : 0 < ((rawData rx).contents n).length := by
    rw [Block.length_contents]
    omega
  have hstore : ∀ l ∈ P, l.isMain isClearIndex = false ∧ l.isMain isFront = false := by
    intro l hl
    cases l with
    | main i => exact hmain i hl
    | _ => exact ⟨rfl, rfl⟩
  obtain ⟨hcut₁, hcut₂, hcut₃, hcut₄⟩ := cut_at_stores s.other rs l
    (fun l hl => (hstore l hl).1) fun l hl => (hstore l hl).2
  have hindex : t₂.index = (rs.length % old.length : ℕ) := by
    rw [hi₂, indexAfter_eq ht₁ hi₁ hpos, Nat.zero_add]
  simp only [SwapsCleanly, firingsBefore, firingsBetween, firingsAfter, hcut₁, hcut₂, hcut₃, hcut₄,
    reads_append, reads_main, reads_firings, append_eq_streamFrom_iff]
  have hbefore := streamFrom_readAfter_iff (a := k) (m := (reads P).length) hold hk hpos
  have hbetween := streamFrom_readAfter_iff (a := k + (reads P).length) (m := rs.length) ht₁
    (k := 0) hi₁ hpos
  have hafter := streamFrom_readAfter_iff (a := 0) (m := (reads l).length) ht₂ hindex hnew
  rw [← hP] at hbefore
  rw [← hrs] at hbetween
  rw [← hl] at hafter
  have hlt : k = k % old.length ↔ k < old.length :=
    ⟨fun h => h ▸ Nat.mod_lt _ hpos, fun h => (Nat.mod_eq_of_lt h).symm⟩
  rw [hbefore, hbetween, hafter, hlt, and_assoc, Nat.zero_mod, eq_comm (a := 0),
    Nat.dvd_iff_mod_eq_zero, Nat.dvd_iff_mod_eq_zero]

/-! ## Two runs -/

/-- The receive buffer with the texture 1, 2, 3, 4, 5 after it. -/
def secondTexture : RecvBuffer := receive [commandText, 1, 2, 3, 4, 5] firstTexture

/-- The statements of `handleTexture` up to the store of `Index`, without a firing. -/
def fillSecond : Trace :=
  [.main (.testFront 5), .main (.loadLength .buff0 5), .main (.memmove .buff0),
    .main (.copyByte .buff0 ⟨0, by decide⟩), .main (.copyByte .buff0 ⟨1, by decide⟩),
    .main (.copyByte .buff0 ⟨2, by decide⟩), .main (.copyByte .buff0 ⟨3, by decide⟩),
    .main (.copyByte .buff0 ⟨4, by decide⟩), .main .clearIndex]

/-- With the first texture playing, a firing between the two stores makes the second one start at
its second sample. -/
theorem swap_skips :
    (playingFirst.t3ie = true ∧ playingFirst.tBuff.on = 1 ∧ playingFirst.tBuff.index = 0 ∧
      playingFirst.tBuff.front = Slot.buff1.byte ∧
      playingFirst.tBuff.Holds .buff1 [9, 8, 7, 6, 5]) ∧
    (∃ b, firmware.lts.Run ⟨[.testFront 5], ⟨playingFirst, secondTexture⟩⟩
      (fillSecond ++ [.isr (some ⟨.buff1, 0, 9⟩), .main (.front .buff0),
        .isr (some ⟨.buff0, 1, 2⟩), .main .testOn]) ⟨[], b⟩) ∧
    ¬ SwapsCleanly .buff1 [9, 8, 7, 6, 5] ((rawData secondTexture).contents 5) 0
      (fillSecond ++ [.isr (some ⟨.buff1, 0, 9⟩), .main (.front .buff0),
        .isr (some ⟨.buff0, 1, 2⟩), .main .testOn]) := by
  obtain ⟨hf, hon, hie, hold, hk⟩ := playingFirst_holds
  refine ⟨⟨hie, hon, hk, hf, hold⟩, ?_, ?_⟩
  · refine (run_of_schedule (fun _ => ()) (List.replicate 9 .main ++ [.isr, .main, .isr, .main])
      (a := ()) ?_).imp fun b h => h.1
    decide +kernel
  · rw [SwapsCleanly]
    decide +kernel

/-- A firing before the two stores and one after them: the samples come out right. -/
theorem swap_iff_clean :
    (∃ b, firmware.lts.Run ⟨[.testFront 5], ⟨playingFirst, secondTexture⟩⟩
      (.isr (some ⟨.buff1, 0, 9⟩) :: fillSecond ++
        [.main (.front .buff0), .isr (some ⟨.buff0, 0, 1⟩), .main .testOn]) ⟨[], b⟩) ∧
    SwapsCleanly .buff1 [9, 8, 7, 6, 5] ((rawData secondTexture).contents 5) 0
      (.isr (some ⟨.buff1, 0, 9⟩) :: fillSecond ++
        [.main (.front .buff0), .isr (some ⟨.buff0, 0, 1⟩), .main .testOn]) := by
  obtain ⟨hf, hon, -, hold, hk⟩ := playingFirst_holds
  obtain ⟨b, hrun, -⟩ : ∃ b, firmware.lts.Run ⟨[.testFront 5], ⟨playingFirst, secondTexture⟩⟩
      (.isr (some ⟨.buff1, 0, 9⟩) :: fillSecond ++
        [.main (.front .buff0), .isr (some ⟨.buff0, 0, 1⟩), .main .testOn]) ⟨[], b⟩ ∧ () = () :=
    run_of_schedule (fun _ => ()) (.isr :: List.replicate 9 .main ++ [.main, .isr, .main])
      (by decide +kernel)
  refine ⟨⟨b, hrun⟩, (swap_iff hf hon hold hk (by decide) (by decide) (by decide) hrun ?_).2 ?_⟩
  · simp [NoCall, fillSecond]
  · exact ⟨.inr (by decide), .inl (by decide +kernel), .inr (by decide +kernel)⟩

end TPadFire.Firmware
