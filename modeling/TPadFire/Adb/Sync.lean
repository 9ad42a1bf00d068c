import TPadFire.Adb.File

/-!
# What the client reads of a file

A file comes from the `sync:` service as a stream of records: its data, in any number of pieces, and
at the end a record that says whether all of it has been sent. The stream comes over the channel cut
into chunks that have nothing to do with the records.

`file_received`: whatever the cut, the client is given the bytes of the file in their order and then
the end of the file, once. `file_cut_short`: if the service gives up, or the channel is closed
before the end, the client is given a first part of the file and then one error.
-/

namespace TPadFire.Adb

open Firmware (Byte)

/-- A record of the `sync:` service. -/
def record (id : UInt32) (d : List Byte) : List Byte :=
  wordBytes id ++ (wordBytes (.ofNat d.length) ++ d)

theorem recordSize_eq : recordSize = 8 := rfl

theorem length_record (id : UInt32) (d : List Byte) :
    (record id d).length = recordSize + d.length := by
  unfold record
  rw [List.length_append, List.length_append, length_wordBytes, length_wordBytes, recordSize_eq]
  omega

/-- The data of a file, record by record. -/
def dataRecords (ds : List (List Byte)) : List Byte := ds.flatMap (record idData)

variable {φ : Type*}

namespace File

/-- `ADBFileCallback` for chunks that come one after another. -/
def feed (i : FileHandle) : File φ → List (List Byte) → Option (File φ × List (FileEvent φ))
  | f, [] => some (f, [])
  | f, l :: ls => (callback i (some l) f).bind fun r => after r.2 (feed i r.1 ls)

/-- An entry that has asked for its file: it waits for the header of a record. -/
structure Started (g : φ) (f : File φ) : Prop where
  func : f.func = some g
  state : f.state = .waitHeader
  remain : f.readRemain = recordSize

section Feed

variable {i : FileHandle} {n m : ℕ} {f f₁ f₂ : File φ} {l l' : List Byte} {ls : List (List Byte)}
  {g : φ} {es es₁ es₂ : List (FileEvent φ)} {r : File φ × List (FileEvent φ)}

theorem Reading.live (h : Reading g f) : f.state ≠ .free := by
  rcases h.state with hs | hs | hs <;> simp [hs]

theorem Started.reading (h : Started g f) : Reading g f where
  func := h.func
  state := .inl h.state
  remain := by simp [h.remain]
  header _ := h.remain.le

/-- A part that leaves the entry waiting is followed by the rest. -/
theorem reading_of_live (hf : Reading g f) (h : consume i n f l = some (f₁, es))
    (hlive : f₁.state ≠ .free) : Gives g i es [] ∧ Reading g f₁ ∧ f₁.handle = f.handle :=
  (consume_cases hf.func hf.ready h).resolve_right fun hz => hlive (by rw [hz.1]; rfl)

theorem callback_total (hf : Reading g f) (l : List Byte) :
    ∃ r, f.callback i (some l) = some r := by
  refine consume_total hf.func hf.ready ?_
  unfold rounds
  split_ifs <;> omega

theorem consume_nil (hf : Reading g f) : consume i (n + 1) f [] = some (f, []) := by
  have hpos := hf.remain
  rcases hf.state with hs | hs | hs
  · rw [consume_header_part (l := []) hs hpos]
    have hmsg : storeAt (recordSize - f.readRemain) [] f.msg = f.msg := by
      funext k
      unfold storeAt
      split_ifs <;> simp
    rw [hmsg]
    rfl
  · rw [consume_data_part (l := []) hs hf.func hpos]
    rfl
  · rw [consume_fail_part (l := []) hs hpos]
    rfl

/-- No proper part of the data ends the file. -/
def Open (i : FileHandle) (f : File φ) (s : List Byte) : Prop :=
  ∀ p q, p ++ q = s → q ≠ [] → ∃ n r, consume i n f p = some r ∧ r.1.state ≠ .free

theorem Open.of_append (h : Open i f (l ++ l')) : Open i f l := fun p q hpq hq =>
  h p (q ++ l') (by rw [← List.append_assoc, hpq]) (List.append_ne_nil_of_left_ne_nil hq _)

/-- What is left of the data after a first part of it. -/
theorem Open.rest (hf : Reading g f) (ho : Open i f (l ++ l'))
    (h : consume i n f l = some (f₁, es)) (hlive : f₁.state ≠ .free) : Open i f₁ l' := by
  obtain ⟨-, hf₁, -⟩ := reading_of_live hf h hlive
  intro p q hpq hq
  obtain ⟨⟨f₂, es₂⟩, h₂⟩ := callback_total (i := i) hf₁ p
  obtain ⟨k, es', hk, -, -⟩ := consume_append hf.func hf.ready h hlive h₂
  obtain ⟨k', r, hk', hr⟩ := ho (l ++ p) q (by rw [List.append_assoc, hpq]) hq
  refine ⟨_, _, h₂, ?_⟩
  rw [consume_unique hk' hk] at hr
  exact hr

/-- **Chunks**: what comes in chunks is read as if it had come at once. -/
theorem feed_flatten (hf : Reading g f) (hls : ∀ l ∈ ls, l ≠ [])
    (ho : Open i f ls.flatten) (h : consume i n f ls.flatten = some (f₁, es)) :
    ∃ es', feed i f ls = some (f₁, es') ∧ contents es' = contents es ∧
      endings es' = endings es := by
  induction ls generalizing f n es with
  | nil =>
    cases n with
    | zero => cases h
    | succ n =>
      rw [List.flatten_nil, consume_nil hf] at h
      obtain ⟨rfl, rfl⟩ := Prod.mk.inj (Option.some.inj h)
      exact ⟨[], rfl, rfl, rfl⟩
  | cons l ls ih =>
    rw [List.flatten_cons] at h ho
    obtain ⟨⟨f', es₁⟩, h₁⟩ := callback_total (i := i) hf l
    unfold feed
    rw [h₁, Option.bind_some]
    cases ls with
    | nil =>
      rw [List.flatten_nil, List.append_nil] at h
      obtain ⟨rfl, rfl⟩ := Prod.mk.inj (consume_unique h h₁)
      exact ⟨es ++ [], rfl, by rw [List.append_nil], by rw [List.append_nil]⟩
    | cons l₂ ls =>
      have hrest : (l₂ :: ls).flatten ≠ [] := by
        rw [List.flatten_cons]
        exact List.append_ne_nil_of_left_ne_nil (hls l₂ (by simp)) _
      obtain ⟨k, r, hk, hlive⟩ := ho l _ rfl hrest
      rw [consume_unique hk h₁] at hlive
      obtain ⟨-, hf', -⟩ := reading_of_live hf h₁ hlive
      obtain ⟨⟨f₂, es₂⟩, h₂⟩ := callback_total (i := i) hf' (l₂ :: ls).flatten
      obtain ⟨k', es', hk', hcont, hend⟩ := consume_append hf.func hf.ready h₁ hlive h₂
      obtain ⟨rfl, rfl⟩ := Prod.mk.inj (consume_unique h hk')
      obtain ⟨es'', hfeed, hcont', hend'⟩ :=
        ih hf' (fun l hl => hls l (List.mem_cons_of_mem _ hl)) (ho.rest hf h₁ hlive) h₂
      rw [hfeed]
      refine ⟨es₁ ++ es'', rfl, ?_, ?_⟩
      · rw [contents_append, hcont', hcont]
      · rw [endings_append, hend', hend]

theorem feed_cons (f : File φ) (l : List Byte) (ls : List (List Byte)) :
    feed i f (l :: ls) = (callback i (some l) f).bind fun r => after r.2 (feed i r.1 ls) := rfl

theorem feed_append (f : File φ) (ls ls' : List (List Byte)) :
    feed i f (ls ++ ls') = (feed i f ls).bind fun r => after r.2 (feed i r.1 ls') := by
  induction ls generalizing f with
  | nil => exact Option.map_id'.symm
  | cons l ls ih =>
    rw [List.cons_append, feed_cons, feed_cons]
    cases callback i (some l) f with
    | none => rfl
    | some r =>
      rw [Option.bind_some, Option.bind_some, ih]
      cases feed i r.1 ls with
      | none => rfl
      | some r' =>
        unfold after
        rw [Option.bind_some, Option.map_some, Option.bind_some, Option.map_map]
        congr 1
        funext r''
        exact congrArg (r''.1, ·) (List.append_assoc ..).symm

/-- What chunks give the client. -/
theorem feed_cases (hf : Reading g f) (h : feed i f ls = some (f₁, es)) :
    (Gives g i es [] ∧ Reading g f₁ ∧ f₁.handle = f.handle) ∨
    (f₁ = zero ∧ ∃ es', Ending g i f.handle es' ∧ Gives g i es es') := by
  induction ls generalizing f es with
  | nil =>
    obtain ⟨rfl, rfl⟩ := Prod.mk.inj (Option.some.inj h)
    exact .inl ⟨gives_nil .., hf, rfl⟩
  | cons l ls ih =>
    unfold feed at h
    obtain ⟨⟨f', es₁⟩, h₁, hrest⟩ := Option.bind_eq_some_iff.1 h
    obtain ⟨⟨f₂, es₂⟩, h₂, heq⟩ := Option.map_eq_some_iff.1 hrest
    obtain ⟨rfl, rfl⟩ := Prod.mk.inj heq
    rcases consume_cases hf.func hf.ready h₁ with ⟨hg, hf', hh⟩ | ⟨rfl, es', he, hg⟩
    · rw [← hh]
      rcases ih hf' h₂ with ⟨hg', hf₂, hh₂⟩ | ⟨hz, es', he, hg'⟩
      · exact .inl ⟨hg'.append hg, hf₂, hh₂⟩
      · exact .inr ⟨hz, es', he, hg'.append hg⟩
    · cases ls with
      | nil =>
        obtain ⟨rfl, rfl⟩ := Prod.mk.inj (Option.some.inj h₂)
        exact .inr ⟨rfl, es', he, by rwa [List.append_nil]⟩
      | cons l₂ ls => cases h₂

end Feed

/-! ## Records -/

section Records

variable {i : FileHandle} {n : ℕ} {f : File φ} {g : φ} {id : UInt32} {d s : List Byte}
  {ds : List (List Byte)}

theorem headed_record (hf : f.readRemain = recordSize) (id k : UInt32) (l : List Byte) :
    (f.headed (wordBytes id ++ (wordBytes k ++ l))).msgId = id ∧
      (f.headed (wordBytes id ++ (wordBytes k ++ l))).readRemain = k.toNat := by
  have hmem : (f.headed (wordBytes id ++ (wordBytes k ++ l))).msg.contents recordSize =
      wordBytes id ++ wordBytes k := by
    unfold headed
    dsimp only
    rw [hf, Nat.sub_self, ← List.append_assoc, List.take_left' (by rfl)]
    exact contents_storeAt rfl _
  constructor
  · unfold msgId
    rw [hmem, word_append_zero]
  · have hsize : (f.headed (wordBytes id ++ (wordBytes k ++ l))).readRemain =
        (f.headed (wordBytes id ++ (wordBytes k ++ l))).msgSize := rfl
    rw [hsize]
    unfold msgSize
    rw [hmem, word_append_succ, word_self]

/-- The entry once the header of a record has been read. -/
structure Headed (g : φ) (f : File φ) (h : Option Handle) (id : UInt32) (k : ℕ) : Prop where
  func : f.func = some g
  handle : f.handle = h
  msgId : f.msgId = id
  remain : f.readRemain = k

/-- The header of a record, whatever follows it. -/
theorem consume_record (hf : Started g f) (hd : d.length < 2 ^ 32)
    (hid : id = idData ∨ id = idDone ∨ id = idFail) (s : List Byte) :
    ∃ f', Headed g f' f.handle id d.length ∧
      f'.state = (if id = idFail then .waitFailData else .waitData) ∧
      ∀ n, consume i (n + 1) f (wordBytes id ++ (wordBytes (.ofNat d.length) ++ s)) =
        consume i n f' s := by
  obtain ⟨hmsg, hrem⟩ := headed_record hf.remain id (.ofNat d.length) s
  have hlen : recordSize ≤ (wordBytes id ++ (wordBytes (.ofNat d.length) ++ s)).length := by
    simp only [List.length_append, length_wordBytes, recordSize_eq]
    omega
  have hdrop : (wordBytes id ++ (wordBytes (.ofNat d.length) ++ s)).drop recordSize = s := by
    rw [← List.append_assoc]
    exact List.drop_left' rfl
  have hsize : (UInt32.ofNat d.length).toNat = d.length := UInt32.toNat_ofNat_of_lt' hd
  refine ⟨{ f.headed (wordBytes id ++ (wordBytes (.ofNat d.length) ++ s)) with
    state := if id = idFail then .waitFailData else .waitData },
    ⟨hf.func, rfl, hmsg, hrem.trans hsize⟩, rfl, fun n => ?_⟩
  rw [consume_header hf.state (hf.remain.trans_le hlen), hmsg, hf.remain, hdrop]
  rcases hid with rfl | rfl | rfl <;> rfl

/-- A record of data, and what follows it. -/
theorem consume_record_data (hf : Started g f) (hd : d.length < 2 ^ 32) (s : List Byte) :
    ∃ f', Started g f' ∧ f'.handle = f.handle ∧ ∀ n, consume i (n + 2) f (record idData d ++ s) =
      after (dataCalls g i (d ++ s) d.length) (consume i n f' s) := by
  obtain ⟨f', hf', hs, hn⟩ := consume_record (i := i) hf hd (.inl rfl) (d ++ s)
  refine ⟨{ f' with readRemain := recordSize, state := .waitHeader },
    ⟨hf'.func, rfl, rfl⟩, hf'.handle, fun n => ?_⟩
  unfold record
  rw [List.append_assoc, List.append_assoc, hn,
    consume_data hs hf'.func (by rw [hf'.remain, List.length_append]; omega), hf'.msgId,
    if_neg (by decide), hf'.remain, List.drop_left]

/-- The record at the end of a file. -/
theorem consume_record_done (hf : Started g f) (hd : d.length < 2 ^ 32) :
    consume i (n + 2) f (record idDone d) =
      some (zero, dataCalls g i d d.length ++ [.finish g i 0, .close f.handle]) := by
  obtain ⟨f', hf', hs, hn⟩ := consume_record (i := i) hf hd (.inr (.inl rfl)) d
  unfold record
  rw [hn, consume_data hs hf'.func hf'.remain.le, hf'.msgId, if_pos rfl, hf'.remain,
    if_neg (fun h => h rfl), hf'.handle]
  rfl

/-- The record of an error. -/
theorem consume_record_fail (hf : Started g f) (hd : d.length < 2 ^ 32) :
    consume i (n + 2) f (record idFail d) = some (zero, [.close f.handle, .finish g i 1]) := by
  obtain ⟨f', hf', hs, hn⟩ := consume_record (i := i) hf hd (.inr (.inr rfl)) d
  unfold record
  rw [hn, consume_fail hs hf'.remain.le, closeAndError_eq hf'.func, hf'.handle]

/-- No proper part of a record ends the file. -/
theorem open_record (hf : Started g f) (hd : d.length < 2 ^ 32)
    (hid : id = idData ∨ id = idDone ∨ id = idFail) : Open i f (record id d) := by
  intro p q hpq hq
  have hlen := congrArg List.length hpq
  rw [List.length_append, length_record, recordSize_eq] at hlen
  have hqpos := List.length_pos_iff.2 hq
  by_cases hp : p.length < recordSize
  · refine ⟨1, _, consume_header_part hf.state (hp.trans_eq hf.remain.symm), ?_⟩
    dsimp only
    rw [hf.state]
    exact FileState.noConfusion
  · unfold record at hpq
    rw [← List.append_assoc] at hpq
    have hpre : wordBytes id ++ wordBytes (.ofNat d.length) <+: p :=
      List.prefix_of_prefix_length_le ⟨d, rfl⟩ ⟨q, hpq⟩ (by
        rw [List.length_append, length_wordBytes, length_wordBytes]
        rw [recordSize_eq] at hp
        omega)
    obtain ⟨p', rfl⟩ := hpre
    rw [List.length_append, List.length_append, length_wordBytes, length_wordBytes] at hlen
    obtain ⟨f', hf', hs, hn⟩ := consume_record (i := i) hf hd hid p'
    rw [List.append_assoc]
    rcases hid with rfl | rfl | rfl
    · refine ⟨2, _, (hn 1).trans (consume_data_part hs hf'.func (by rw [hf'.remain]; omega)), ?_⟩
      rw [hs]
      exact FileState.noConfusion
    · refine ⟨2, _, (hn 1).trans (consume_data_part hs hf'.func (by rw [hf'.remain]; omega)), ?_⟩
      rw [hs]
      exact FileState.noConfusion
    · refine ⟨2, _, (hn 1).trans (consume_fail_part hs (by rw [hf'.remain]; omega)), ?_⟩
      rw [hs]
      exact FileState.noConfusion

/-- Records of data, and what follows them. -/
theorem consume_dataRecords (hf : Started g f) (hds : ∀ d ∈ ds, d.length < 2 ^ 32) (s : List Byte) :
    ∃ f' es, Started g f' ∧ f'.handle = f.handle ∧ contents es = ds.flatten ∧ endings es = [] ∧
      ∀ n, consume i (n + 2 * ds.length) f (dataRecords ds ++ s) = after es (consume i n f' s) := by
  induction ds generalizing f with
  | nil =>
    refine ⟨f, [], hf, rfl, rfl, rfl, fun n => ?_⟩
    exact Option.map_id'.symm
  | cons d ds ih =>
    obtain ⟨f₁, hf₁, hh₁, hn₁⟩ :=
      consume_record_data (i := i) hf (hds d List.mem_cons_self) (dataRecords ds ++ s)
    obtain ⟨f₂, es, hf₂, hh₂, hcont, hend, hn₂⟩ :=
      ih hf₁ fun d hd => hds d (List.mem_cons_of_mem _ hd)
    refine ⟨f₂, dataCalls g i (d ++ (dataRecords ds ++ s)) d.length ++ es, hf₂, hh₂.trans hh₁, ?_,
      ?_, fun n => ?_⟩
    · rw [contents_append, contents_dataCalls, List.take_left, hcont]
      rfl
    · rw [endings_append, endings_dataCalls, hend]
      rfl
    · have hcons : dataRecords (d :: ds) ++ s = record idData d ++ (dataRecords ds ++ s) :=
        List.append_assoc ..
      rw [hcons, List.length_cons, mul_add, mul_one, ← add_assoc, hn₁, hn₂]
      unfold after
      rw [Option.map_map]
      congr 1
      funext r
      exact congrArg (r.1, ·) (List.append_assoc ..).symm

/-- No proper part of a stream ends the file. -/
theorem open_stream (hf : Started g f) (hds : ∀ d ∈ ds, d.length < 2 ^ 32)
    (hd : d.length < 2 ^ 32) (hid : id = idData ∨ id = idDone ∨ id = idFail) :
    Open i f (dataRecords ds ++ record id d) := by
  induction ds generalizing f with
  | nil => exact open_record hf hd hid
  | cons d₀ ds ih =>
    intro p q hpq hq
    have hd₀ := hds d₀ List.mem_cons_self
    have hcons : p ++ q = record idData d₀ ++ (dataRecords ds ++ record id d) :=
      hpq.trans (List.append_assoc ..)
    have hbeyond (p' : List Byte) (hp : p = record idData d₀ ++ p')
        (hp' : p' ++ q = dataRecords ds ++ record id d) :
        ∃ n r, consume i n f p = some r ∧ r.1.state ≠ .free := by
      obtain ⟨f', hf', -, hn⟩ := consume_record_data (i := i) hf hd₀ p'
      obtain ⟨n, r, hr, hlive⟩ :=
        ih hf' (fun d hd => hds d (List.mem_cons_of_mem _ hd)) p' q hp' hq
      refine ⟨n + 2, (r.1, dataCalls g i (d₀ ++ p') d₀.length ++ r.2), ?_, hlive⟩
      rw [hp, hn, hr]
      rfl
    rcases List.append_eq_append_iff.1 hcons with ⟨c, hc, hq'⟩ | ⟨p', hp, hp'⟩
    · by_cases hnil : c = []
      · subst hnil
        exact hbeyond [] (by rw [hc, List.append_nil, List.append_nil]) hq'
      · exact open_record hf hd₀ (.inl rfl) p c hc.symm hnil
    · exact hbeyond p' hp hp'.symm

end Records

/-! ## Files -/

section Files

variable {i : FileHandle} {f : File φ} {g : φ} {d : List Byte} {ds ls : List (List Byte)}

/-- The whole stream of a file. -/
theorem consume_stream (hf : Started g f) (hds : ∀ d ∈ ds, d.length < 2 ^ 32)
    (hd : d.length < 2 ^ 32) :
    ∃ n es, consume i n f (dataRecords ds ++ record idDone d) = some (zero, es) ∧
      contents es = ds.flatten ++ d ∧ endings es = [.finish g i 0, .close f.handle] := by
  obtain ⟨f', es, hf', hh, hcont, hend, hn⟩ :=
    consume_dataRecords (i := i) hf hds (record idDone d)
  have hwhole := hn 2
  rw [consume_record_done (n := 0) hf' hd, hh] at hwhole
  refine ⟨_, _, hwhole, ?_, ?_⟩
  · rw [contents_append, contents_append, contents_dataCalls, List.take_length, hcont]
    exact congrArg (ds.flatten ++ ·) (List.append_nil d)
  · rw [endings_append, endings_append, endings_dataCalls, hend]
    rfl

/-- A file that has been asked for. -/
def asked : File ℕ := ⟨.waitHeader, some 7, some ⟨3, by decide⟩, recordSize, fun _ => 0, []⟩

theorem asked_started : Started 7 asked := ⟨rfl, rfl, rfl⟩

/-- **A file is received**: if all of it is sent, in any number of records, then whatever chunks the
stream comes in, the client is called with the bytes of the file in order and then once with the
end of the file; the channel is closed and the entry is free. -/
theorem file_received (hf : Started g f) (hds : ∀ d ∈ ds, d.length < 2 ^ 32)
    (hd : d.length < 2 ^ 32) (hls : ∀ l ∈ ls, l ≠ [])
    (hcut : ls.flatten = dataRecords ds ++ record idDone d) :
    ∃ cs : List (List Byte), cs.flatten = ds.flatten ++ d ∧
      feed i f ls = some (zero, cs.map (.data g i) ++ [.finish g i 0, .close f.handle]) := by
  obtain ⟨n, es, hwhole, hcont, hend⟩ := consume_stream (i := i) hf hds hd
  rw [← hcut] at hwhole
  obtain ⟨es', hfeed, hcont', hend'⟩ := feed_flatten hf.reading hls
    (by rw [hcut]; exact open_stream hf hds hd (.inr (.inl rfl))) hwhole
  rcases feed_cases hf.reading hfeed with ⟨-, hlive, -⟩ | ⟨-, es₁, he, cs, rfl⟩
  · exact absurd rfl hlive.live
  · rw [endings_append, endings_data, hend] at hend'
    rw [contents_append, contents_data, hcont] at hcont'
    cases he with
    | eof => exact ⟨cs, by simpa [contents] using hcont', hfeed⟩
    | failed => cases hend'

/-- **A file that is cut short**: if the channel is closed when some proper part of the stream has
come, in whatever chunks, then the client has been called with a first part of the file, and is
called once with an error; the entry is free. -/
theorem file_cut_short (hf : Started g f) (hds : ∀ d ∈ ds, d.length < 2 ^ 32)
    (hd : d.length < 2 ^ 32) (hls : ∀ l ∈ ls, l ≠ []) {q : List Byte} (hq : q ≠ [])
    (hcut : ls.flatten ++ q = dataRecords ds ++ record idDone d) :
    ∃ (f' : File φ) (cs : List (List Byte)), cs.flatten <+: ds.flatten ++ d ∧
      feed i f ls = some (f', cs.map (.data g i)) ∧
      f'.callback i none = some (zero, [.finish g i 1]) := by
  have ho := open_stream (i := i) hf hds hd (.inr (.inl rfl))
  rw [← hcut] at ho
  obtain ⟨n, ⟨f', es⟩, hr, hlive⟩ := ho _ q rfl hq
  obtain ⟨hg, hf', -⟩ := reading_of_live hf.reading hr hlive
  obtain ⟨es', hfeed, hcont', -⟩ := feed_flatten hf.reading hls ho.of_append hr
  obtain ⟨⟨f₂, es₂⟩, h₂⟩ := callback_total (i := i) hf' q
  obtain ⟨k, es₃, hk, hcont₃, -⟩ := consume_append hf.func hf.reading.ready hr hlive h₂
  obtain ⟨m, es₄, hwhole, hcont₄, -⟩ := consume_stream (i := i) hf hds hd
  rw [← hcut] at hwhole
  obtain ⟨rfl, rfl⟩ := Prod.mk.inj (consume_unique hk hwhole)
  rcases feed_cases hf.reading hfeed with ⟨⟨cs, rfl⟩, -, -⟩ | ⟨rfl, -⟩
  · rw [List.append_nil] at hfeed
    rw [List.append_nil, contents_data] at hcont'
    refine ⟨f', cs, ⟨contents es₂, ?_⟩, hfeed, ?_⟩
    · rw [hcont', ← hcont₃, hcont₄]
    · unfold callback error
      rw [hf'.func]
      rfl
  · exact absurd rfl hlive

theorem file_cut_short_asked : ∃ (f' : File ℕ) (cs : List (List Byte)), cs.flatten <+: [1, 2, 3] ∧
    feed ⟨1, by decide⟩ asked [[0x44, 0x41, 0x54], [0x41, 3, 0, 0, 0, 1], [2]] =
      some (f', cs.map (.data 7 ⟨1, by decide⟩)) ∧
    f'.callback ⟨1, by decide⟩ none = some (zero, [.finish 7 ⟨1, by decide⟩ 1]) :=
  file_cut_short asked_started (by decide) (by decide) (by decide)
    (List.cons_ne_nil 3 [0x44, 0x4f, 0x4e, 0x45, 0, 0, 0, 0])
    (by decide : [[0x44, 0x41, 0x54], [0x41, 3, 0, 0, 0, 1], [2]].flatten ++
      [3, 0x44, 0x4f, 0x4e, 0x45, 0, 0, 0, 0] = dataRecords [[1, 2, 3]] ++ record idDone [])

/-- **A file that cannot be read**: if the service reports an error after some of the data, then
whatever chunks the stream comes in, the client is called with these data and then once with an
error; the channel is closed and the entry is free. -/
theorem file_failed (hf : Started g f) (hds : ∀ d ∈ ds, d.length < 2 ^ 32)
    (hd : d.length < 2 ^ 32) (hls : ∀ l ∈ ls, l ≠ [])
    (hcut : ls.flatten = dataRecords ds ++ record idFail d) :
    ∃ cs : List (List Byte), cs.flatten = ds.flatten ∧
      feed i f ls = some (zero, cs.map (.data g i) ++ [.close f.handle, .finish g i 1]) := by
  obtain ⟨f', es, hf', hh, hcont, hend, hn⟩ :=
    consume_dataRecords (i := i) hf hds (record idFail d)
  have hwhole := hn 2
  rw [consume_record_fail (n := 0) hf' hd, hh, ← hcut] at hwhole
  obtain ⟨es', hfeed, hcont', hend'⟩ := feed_flatten hf.reading hls
    (by rw [hcut]; exact open_stream hf hds hd (.inr (.inr rfl))) hwhole
  rw [contents_append, hcont] at hcont'
  rw [endings_append, hend] at hend'
  rcases feed_cases hf.reading hfeed with ⟨-, hlive, -⟩ | ⟨-, es₁, he, cs, rfl⟩
  · exact absurd rfl hlive.live
  · rw [endings_append, endings_data] at hend'
    rw [contents_append, contents_data] at hcont'
    cases he with
    | eof => cases hend'
    | failed => exact ⟨cs, by simpa [contents] using hcont', hfeed⟩

theorem file_failed_asked : ∃ cs : List (List Byte), cs.flatten = [1] ∧
    feed ⟨1, by decide⟩ asked [[0x44, 0x41, 0x54], [0x41, 1, 0, 0, 0, 1, 0x46],
      [0x41, 0x49, 0x4c, 2, 0, 0, 0, 5], [6]] =
      some (zero, cs.map (.data 7 ⟨1, by decide⟩) ++
        [.close (some ⟨3, by decide⟩), .finish 7 ⟨1, by decide⟩ 1]) :=
  file_failed asked_started (by decide) (by decide) (by decide)
    (by decide : [[0x44, 0x41, 0x54], [0x41, 1, 0, 0, 0, 1, 0x46],
      [0x41, 0x49, 0x4c, 2, 0, 0, 0, 5], [6]].flatten = dataRecords [[1]] ++ record idFail [5, 6])

end Files

end File

end TPadFire.Adb
