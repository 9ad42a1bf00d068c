import TPadFire.Adb.Channels
import TPadFire.Adb.Wire

/-!
# Files over ADB

The reader of `adb_file.c`. A file is read from a channel to the `sync:` service, which sends it as
records: a header of 8 bytes, an id and a size, and then the data. `ADBFileCallback` is called with
what arrives, cut anywhere, and passes the data on to the function of the client.

`consume` is its loop on an entry of the file table, with what it does outside of the entry as a
list of events: the calls of the client's function and of `ADBClose`. Calling a null pointer leaves
no result. The client's function is taken to call nothing of the module: a call of `ADBFileClose` or
`ADBFileRead` out of it would change the entry under the loop (`Reentry`).
-/

namespace TPadFire.Adb

open Firmware (Byte)

/-! ## Constants -/

/-- `MKID` -/
def mkid (a b c d : Byte) : UInt32 :=
  a.toUInt32 ||| (b.toUInt32 <<< 8) ||| (c.toUInt32 <<< 16) ||| (d.toUInt32 <<< 24)

/-- `ID_RECV` -/
def idRecv : UInt32 := mkid 0x52 0x45 0x43 0x56

/-- `ID_DONE` -/
def idDone : UInt32 := mkid 0x44 0x4f 0x4e 0x45

/-- `ID_DATA` -/
def idData : UInt32 := mkid 0x44 0x41 0x54 0x41

/-- `ID_FAIL` -/
def idFail : UInt32 := mkid 0x46 0x41 0x49 0x4c

/-- `ADB_FILE_MAX_FILES` -/
abbrev adbFileMaxFiles : ℕ := 2

/-- `ADB_FILE_HANDLE`, a valid one. -/
abbrev FileHandle := Fin adbFileMaxFiles

/-- The size of the header of a record, `sizeof f->msg.data`. -/
abbrev recordSize : ℕ := 8

/-! ## Entries -/

/-- `ADB_FILE_STATE` -/
inductive FileState
  | free
  | waitOpen
  | waitHeader
  | waitData
  | waitFailData
  deriving DecidableEq, Repr

/-- `ADB_FILE`. The client's functions are values of `φ`. -/
structure File (φ : Type*) where
  state : FileState
  /-- The function of the client, if the pointer is not null. -/
  func : Option φ
  /-- The channel, if it is not `ADB_INVALID_CHANNEL_HANDLE`. -/
  handle : Option Handle
  readRemain : ℕ
  /-- The header of the record that is being read. -/
  msg : Block Byte recordSize
  path : List Byte

/-- What `ADBFileCallback` does outside of the entry. -/
inductive FileEvent (φ : Type*)
  /-- The client's function is called with data. -/
  | data (func : φ) (i : FileHandle) (l : List Byte)
  /-- The client's function is called with a null pointer and a code: 0 at the end of the file, 1
  after an error. -/
  | finish (func : φ) (i : FileHandle) (code : ℕ)
  /-- `ADBClose` is called. -/
  | close (h : Option Handle)
  deriving DecidableEq

variable {φ : Type*}

/-- Write the list `l` over a block, from the position `k` on. -/
def storeAt {n : ℕ} (k : ℕ) (l : List Byte) (b : Block Byte n) : Block Byte n := fun i =>
  if k ≤ (i : ℕ) then (l[(i : ℕ) - k]?).getD (b i) else b i

theorem storeAt_append {n : ℕ} (k : ℕ) (l l' : List Byte) (b : Block Byte n) :
    storeAt (k + l.length) l' (storeAt k l b) = storeAt k (l ++ l') b := by
  funext i
  unfold storeAt
  by_cases hk : k ≤ (i : ℕ)
  · rw [if_pos hk, if_pos hk]
    by_cases hl : k + l.length ≤ (i : ℕ)
    · rw [if_pos hl, List.getElem?_append_right (by omega), Nat.sub_add_eq,
        List.getElem?_eq_none (l := l) (by omega)]
      rfl
    · rw [if_neg hl, List.getElem?_append_left (by omega)]
  · rw [if_neg hk, if_neg hk, if_neg (by omega)]

/-- A list as long as the block is all that it holds. -/
theorem contents_storeAt {n : ℕ} {l : List Byte} (hl : l.length = n) (b : Block Byte n) :
    (storeAt 0 l b).contents n = l := by
  apply List.ext_getElem (by rw [Block.length_contents]; omega)
  intro i hi hi'
  rw [Block.getElem_contents _ _ hi (by omega)]
  unfold storeAt
  rw [if_pos (Nat.zero_le _)]
  simp [List.getElem?_eq_getElem hi']

namespace File

/-- An entry whose bytes are all zero; its channel is 0. -/
def zero : File φ := ⟨.free, none, some firstHandle, 0, fun _ => 0, []⟩

/-- `f->msg.id` -/
def msgId (f : File φ) : UInt32 := word (f.msg.contents recordSize) 0

/-- `f->msg.data.size` -/
def msgSize (f : File φ) : ℕ := (word (f.msg.contents recordSize) 1).toNat

/-- If there are data, call the client's function with the first `n` bytes of them. -/
def callData (i : FileHandle) (l : List Byte) (n : ℕ) (f : File φ) : Option (List (FileEvent φ)) :=
  if l.length > 0 then f.func.map fun func => [.data func i (l.take n)] else some []

/-- The label `error` of `ADBFileCallback`. -/
def error (i : FileHandle) (f : File φ) : Option (File φ × List (FileEvent φ)) :=
  f.func.map fun func => (zero, [.finish func i 1])

/-- The label `close_and_error`. -/
def closeAndError (i : FileHandle) (f : File φ) : Option (File φ × List (FileEvent φ)) :=
  (f.error i).map fun r => (r.1, .close f.handle :: r.2)

/-- Put events before those of a result. -/
def after (es : List (FileEvent φ)) (r : Option (File φ × List (FileEvent φ))) :
    Option (File φ × List (FileEvent φ)) := r.map fun r => (r.1, es ++ r.2)

/-- The loop of `ADBFileCallback` for the entry `i`, with `n` rounds left, on the data `l`, when the
client's function calls nothing of the module. -/
def consume (i : FileHandle) : ℕ → File φ → List Byte → Option (File φ × List (FileEvent φ))
  | 0, _, _ => none
  | n + 1, f, l =>
    match f.state with
    | .free | .waitOpen => f.closeAndError i
    | .waitHeader =>
      if l.length ≥ f.readRemain then
        let f := { f with
          msg := storeAt (recordSize - f.readRemain) (l.take f.readRemain) f.msg }
        let l := l.drop f.readRemain
        let f := { f with readRemain := f.msgSize }
        if f.msgId = idData ∨ f.msgId = idDone then consume i n { f with state := .waitData } l
        else if f.msgId = idFail then consume i n { f with state := .waitFailData } l
        else f.closeAndError i
      else
        some ({ f with
          msg := storeAt (recordSize - f.readRemain) l f.msg
          readRemain := f.readRemain - l.length }, [])
    | .waitData =>
      if l.length ≥ f.readRemain then
        (f.callData i l f.readRemain).bind fun es => after es <|
          if f.msgId = idDone then
            if l.length ≠ f.readRemain then f.closeAndError i
            else f.func.map fun func => (zero, [.finish func i 0, .close f.handle])
          else
            consume i n { f with readRemain := recordSize, state := .waitHeader }
              (l.drop f.readRemain)
      else
        (f.callData i l l.length).map fun es =>
          ({ f with readRemain := f.readRemain - l.length }, es)
    | .waitFailData =>
      if l.length ≥ f.readRemain then f.closeAndError i
      else some ({ f with readRemain := f.readRemain - l.length }, [])

/-- Rounds of the loop that are enough for the data `l`: each record takes two. -/
def rounds (l : List Byte) : ℕ := 2 * l.length + 2

/-- `ADBFileCallback` for the entry `i`, when the client's function calls nothing of the module:
with a null pointer the channel has been closed. -/
def callback (i : FileHandle) (data : Option (List Byte)) (f : File φ) :
    Option (File φ × List (FileEvent φ)) :=
  match data with
  | none => f.error i
  | some l => consume i (rounds l) f l

/-! ## Rounds of the loop -/

section Rounds

variable {i : FileHandle} {n : ℕ} {f : File φ} {l : List Byte} {g : φ}

/-- The calls of the client's function for the data `l`, of which `n` bytes belong to the record. -/
def dataCalls (g : φ) (i : FileHandle) (l : List Byte) (n : ℕ) : List (FileEvent φ) :=
  if l.length > 0 then [.data g i (l.take n)] else []

/-- The entry when the header of a record is complete. -/
def headed (f : File φ) (l : List Byte) : File φ :=
  let f := { f with msg := storeAt (recordSize - f.readRemain) (l.take f.readRemain) f.msg }
  { f with readRemain := f.msgSize }

theorem closeAndError_eq (hf : f.func = some g) :
    f.closeAndError i = some (zero, [.close f.handle, .finish g i 1]) := by
  unfold closeAndError error
  rw [hf]
  rfl

theorem callData_eq (hf : f.func = some g) (k : ℕ) :
    f.callData i l k = some (dataCalls g i l k) := by
  unfold callData dataCalls
  rw [hf]
  split_ifs <;> rfl

theorem consume_idle (hs : f.state = .free ∨ f.state = .waitOpen) :
    consume i (n + 1) f l = f.closeAndError i := by
  rw [consume]
  rcases hs with hs | hs <;> simp only [hs]

theorem consume_header (hs : f.state = .waitHeader) (hl : f.readRemain ≤ l.length) :
    consume i (n + 1) f l =
      if (f.headed l).msgId = idData ∨ (f.headed l).msgId = idDone then
        consume i n { f.headed l with state := .waitData } (l.drop f.readRemain)
      else if (f.headed l).msgId = idFail then
        consume i n { f.headed l with state := .waitFailData } (l.drop f.readRemain)
      else (f.headed l).closeAndError i := by
  rw [consume]
  simp only [hs]
  rw [if_pos hl]
  rfl

theorem consume_header_part (hs : f.state = .waitHeader) (hl : l.length < f.readRemain) :
    consume i (n + 1) f l = some ({ f with
      msg := storeAt (recordSize - f.readRemain) l f.msg
      readRemain := f.readRemain - l.length }, []) := by
  rw [consume]
  simp only [hs]
  rw [if_neg (by omega)]

theorem consume_data (hs : f.state = .waitData) (hf : f.func = some g)
    (hl : f.readRemain ≤ l.length) :
    consume i (n + 1) f l = after (dataCalls g i l f.readRemain) (
      if f.msgId = idDone then
        if l.length ≠ f.readRemain then some (zero, [.close f.handle, .finish g i 1])
        else some (zero, [.finish g i 0, .close f.handle])
      else
        consume i n { f with readRemain := recordSize, state := .waitHeader }
          (l.drop f.readRemain)) := by
  rw [consume]
  simp only [hs]
  rw [if_pos hl, callData_eq hf, closeAndError_eq hf, hf]
  rfl

theorem consume_data_part (hs : f.state = .waitData) (hf : f.func = some g)
    (hl : l.length < f.readRemain) :
    consume i (n + 1) f l =
      some ({ f with readRemain := f.readRemain - l.length }, dataCalls g i l l.length) := by
  rw [consume]
  simp only [hs]
  rw [if_neg (by omega), callData_eq hf]
  rfl

theorem consume_fail (hs : f.state = .waitFailData) (hl : f.readRemain ≤ l.length) :
    consume i (n + 1) f l = f.closeAndError i := by
  rw [consume]
  simp only [hs]
  rw [if_pos hl]

theorem consume_fail_part (hs : f.state = .waitFailData) (hl : l.length < f.readRemain) :
    consume i (n + 1) f l = some ({ f with readRemain := f.readRemain - l.length }, []) := by
  rw [consume]
  simp only [hs]
  rw [if_neg (by omega)]

end Rounds

/-! ## What the loop returns -/

/-- The bytes that the client is given. -/
def contents : List (FileEvent φ) → List Byte
  | [] => []
  | .data _ _ l :: es => l ++ contents es
  | .finish _ _ _ :: es => contents es
  | .close _ :: es => contents es

/-- What happens besides the client being given bytes. -/
def endings : List (FileEvent φ) → List (FileEvent φ)
  | [] => []
  | .data _ _ _ :: es => endings es
  | .finish g i c :: es => .finish g i c :: endings es
  | .close h :: es => .close h :: endings es

theorem contents_append (es es' : List (FileEvent φ)) :
    contents (es ++ es') = contents es ++ contents es' := by
  induction es with
  | nil => rfl
  | cons e es ih => cases e <;> simp [contents, ih]

theorem endings_append (es es' : List (FileEvent φ)) :
    endings (es ++ es') = endings es ++ endings es' := by
  induction es with
  | nil => rfl
  | cons e es ih => cases e <;> simp [endings, ih]

section Results

variable {i : FileHandle} {n m : ℕ} {f f₁ f₂ : File φ} {l l' : List Byte} {g : φ}
  {es es₁ es₂ : List (FileEvent φ)} {r : File φ × List (FileEvent φ)}

@[simp] theorem contents_dataCalls (g : φ) (i : FileHandle) (l : List Byte) (k : ℕ) :
    contents (dataCalls g i l k) = l.take k := by
  unfold dataCalls
  split_ifs with h
  · simp [contents]
  · rw [List.eq_nil_of_length_eq_zero (by omega : l.length = 0), List.take_nil]
    rfl

@[simp] theorem endings_dataCalls (g : φ) (i : FileHandle) (l : List Byte) (k : ℕ) :
    endings (dataCalls g i l k) = [] := by
  unfold dataCalls
  split_ifs <;> rfl

/-- More rounds than are needed make no difference. -/
theorem consume_succ (h : consume i n f l = some r) : consume i (n + 1) f l = some r := by
  induction n generalizing f l r with
  | zero => cases h
  | succ n ih =>
    cases hs : f.state with
    | free | waitOpen =>
      rw [consume_idle (by simp [hs])] at h ⊢
      exact h
    | waitHeader =>
      by_cases hl : f.readRemain ≤ l.length
      · rw [consume_header hs hl] at h ⊢
        split_ifs at h ⊢
        · exact ih h
        · exact ih h
        · exact h
      · rw [consume_header_part hs (by omega)] at h ⊢
        exact h
    | waitData =>
      rw [consume] at h ⊢
      simp only [hs] at h ⊢
      split_ifs at h ⊢ with h1 h2 h3
      · exact h
      · exact h
      · obtain ⟨es, hes, h'⟩ := Option.bind_eq_some_iff.1 h
        obtain ⟨r', hr', heq⟩ := Option.map_eq_some_iff.1 h'
        rw [hes]
        exact Option.map_eq_some_iff.2 ⟨r', ih hr', heq⟩
      · exact h
    | waitFailData =>
      by_cases hl : f.readRemain ≤ l.length
      · rw [consume_fail hs hl] at h ⊢
        exact h
      · rw [consume_fail_part hs (by omega)] at h ⊢
        exact h

theorem consume_mono (h : consume i n f l = some r) (hnm : n ≤ m) : consume i m f l = some r := by
  induction m, hnm using Nat.le_induction with
  | base => exact h
  | succ m _ ih => exact consume_succ ih

/-- The result does not depend on the rounds. -/
theorem consume_unique {r' : File φ × List (FileEvent φ)} (h : consume i n f l = some r)
    (h' : consume i m f l = some r') : r = r' := by
  have h₁ := consume_mono h (Nat.le_max_left n m)
  have h₂ := consume_mono h' (Nat.le_max_right n m)
  exact Option.some.inj (h₁.symm.trans h₂)

/-- The header of a record is read into its 8 bytes. -/
def Ready (f : File φ) : Prop :=
  f.state = .waitHeader → 0 < f.readRemain ∧ f.readRemain ≤ recordSize

/-- **The loop ends** within the rounds that `ADBFileCallback` is given. -/
theorem consume_total (hf : f.func = some g) (hr : f.Ready)
    (hn : 2 * l.length + (if f.state = .waitHeader then 1 else 2) ≤ n) :
    ∃ r, consume i n f l = some r := by
  induction n generalizing f l with
  | zero => split_ifs at hn <;> omega
  | succ n ih =>
    cases hs : f.state with
    | free | waitOpen =>
      rw [consume_idle (by simp [hs]), closeAndError_eq hf]
      exact ⟨_, rfl⟩
    | waitHeader =>
      rw [if_pos hs] at hn
      by_cases hl : f.readRemain ≤ l.length
      · have hpos := (hr hs).1
        rw [consume_header hs hl]
        split_ifs
        · refine ih hf FileState.noConfusion ?_
          rw [if_neg FileState.noConfusion, List.length_drop]
          omega
        · refine ih hf FileState.noConfusion ?_
          rw [if_neg FileState.noConfusion, List.length_drop]
          omega
        · exact ⟨_, closeAndError_eq hf⟩
      · rw [consume_header_part hs (by omega)]
        exact ⟨_, rfl⟩
    | waitData =>
      rw [if_neg (by simp [hs])] at hn
      by_cases hl : f.readRemain ≤ l.length
      · rw [consume_data hs hf hl]
        split_ifs
        · exact ⟨_, rfl⟩
        · exact ⟨_, rfl⟩
        · obtain ⟨r, hr⟩ := ih (f := { f with readRemain := recordSize, state := .waitHeader })
            (l := l.drop f.readRemain) hf (fun _ => ⟨Nat.succ_pos 7, le_rfl⟩) (by
              rw [if_pos rfl, List.length_drop]
              omega)
          rw [hr]
          exact ⟨_, rfl⟩
      · rw [consume_data_part hs hf (by omega)]
        exact ⟨_, rfl⟩
    | waitFailData =>
      by_cases hl : f.readRemain ≤ l.length
      · rw [consume_fail hs hl, closeAndError_eq hf]
        exact ⟨_, rfl⟩
      · rw [consume_fail_part hs (by omega)]
        exact ⟨_, rfl⟩

/-- An entry that waits for more of its file. -/
structure Reading (g : φ) (f : File φ) : Prop where
  func : f.func = some g
  state : f.state = .waitHeader ∨ f.state = .waitData ∨ f.state = .waitFailData
  remain : 0 < f.readRemain
  header : f.state = .waitHeader → f.readRemain ≤ recordSize

theorem Reading.ready (h : Reading g f) : f.Ready := fun hs => ⟨h.remain, h.header hs⟩

/-- How a file ends for the client: all of it has been read, or there was an error. -/
inductive Ending (g : φ) (i : FileHandle) (h : Option Handle) : List (FileEvent φ) → Prop
  | eof : Ending g i h [.finish g i 0, .close h]
  | failed : Ending g i h [.close h, .finish g i 1]

/-- The client is given some bytes of the file, and then the events `es'` happen. -/
def Gives (g : φ) (i : FileHandle) (es es' : List (FileEvent φ)) : Prop :=
  ∃ cs : List (List Byte), es = cs.map (.data g i) ++ es'

theorem gives_nil (g : φ) (i : FileHandle) (es : List (FileEvent φ)) : Gives g i es es := ⟨[], rfl⟩

theorem gives_dataCalls (g : φ) (i : FileHandle) (l : List Byte) (k : ℕ) :
    Gives g i (dataCalls g i l k) [] := by
  unfold dataCalls
  split_ifs
  · exact ⟨[l.take k], rfl⟩
  · exact gives_nil ..

theorem Gives.append {es' : List (FileEvent φ)} (h : Gives g i es es₁)
    (h' : Gives g i es' []) : Gives g i (es' ++ es) es₁ := by
  obtain ⟨cs, rfl⟩ := h
  obtain ⟨cs', rfl⟩ := h'
  exact ⟨cs' ++ cs, by rw [List.map_append, List.append_nil, List.append_assoc]⟩

theorem contents_data (g : φ) (i : FileHandle) (cs : List (List Byte)) :
    contents (cs.map (.data g i)) = cs.flatten := by
  induction cs with
  | nil => rfl
  | cons c cs ih => exact congrArg (c ++ ·) ih

theorem endings_data (g : φ) (i : FileHandle) (cs : List (List Byte)) :
    endings (cs.map (.data g i)) = [] := by
  induction cs with
  | nil => rfl
  | cons c cs ih => exact ih

theorem closeAndError_cases (hf : f.func = some g) (h : f.closeAndError i = some (f₁, es)) :
    f₁ = zero ∧ ∃ es', Ending g i f.handle es' ∧ Gives g i es es' := by
  rw [closeAndError_eq hf] at h
  obtain ⟨rfl, rfl⟩ := Prod.mk.inj (Option.some.inj h)
  exact ⟨rfl, _, .failed, gives_nil ..⟩

/-- **What the loop does**: the client is given bytes, and then the entry waits for more, or the
file has ended and the entry is free. -/
theorem consume_cases (hf : f.func = some g) (hr : f.Ready)
    (h : consume i n f l = some (f₁, es)) :
    (Gives g i es [] ∧ Reading g f₁ ∧ f₁.handle = f.handle) ∨
    (f₁ = zero ∧ ∃ es', Ending g i f.handle es' ∧ Gives g i es es') := by
  induction n generalizing f l es with
  | zero => cases h
  | succ n ih =>
    cases hs : f.state with
    | free | waitOpen =>
      rw [consume_idle (by simp [hs])] at h
      exact .inr (closeAndError_cases hf h)
    | waitHeader =>
      by_cases hl : f.readRemain ≤ l.length
      · rw [consume_header hs hl] at h
        split_ifs at h
        · exact ih (f := { f.headed l with state := .waitData }) hf
            (fun h => FileState.noConfusion h) h
        · exact ih (f := { f.headed l with state := .waitFailData }) hf
            (fun h => FileState.noConfusion h) h
        · exact .inr (closeAndError_cases (f := f.headed l) hf h)
      · rw [consume_header_part hs (by omega)] at h
        obtain ⟨rfl, rfl⟩ := Prod.mk.inj (Option.some.inj h)
        refine .inl ⟨gives_nil .., ⟨hf, .inl hs, ?_, ?_⟩, rfl⟩
        · exact Nat.sub_pos_of_lt (by omega)
        · exact fun _ => (Nat.sub_le _ _).trans (hr hs).2
    | waitData =>
      by_cases hl : f.readRemain ≤ l.length
      · rw [consume_data hs hf hl] at h
        obtain ⟨⟨f', es'⟩, h', heq⟩ := Option.map_eq_some_iff.1 h
        obtain ⟨rfl, rfl⟩ := Prod.mk.inj heq
        split_ifs at h' with hdone hlen
        · obtain ⟨rfl, rfl⟩ := Prod.mk.inj (Option.some.inj h')
          exact .inr ⟨rfl, _, .failed, (gives_nil ..).append (gives_dataCalls ..)⟩
        · obtain ⟨rfl, rfl⟩ := Prod.mk.inj (Option.some.inj h')
          exact .inr ⟨rfl, _, .eof, (gives_nil ..).append (gives_dataCalls ..)⟩
        · rcases ih (f := { f with readRemain := recordSize, state := .waitHeader }) hf
            (fun _ => ⟨Nat.succ_pos 7, le_rfl⟩) h' with ⟨hg, hread, hh⟩ | ⟨h0, es, he, hg⟩
          · exact .inl ⟨hg.append (gives_dataCalls ..), hread, hh⟩
          · exact .inr ⟨h0, es, he, hg.append (gives_dataCalls ..)⟩
      · rw [consume_data_part hs hf (by omega)] at h
        obtain ⟨rfl, rfl⟩ := Prod.mk.inj (Option.some.inj h)
        refine .inl ⟨gives_dataCalls .., ⟨hf, .inr (.inl hs), ?_, fun h => ?_⟩, rfl⟩
        · exact Nat.sub_pos_of_lt (by omega)
        · rw [hs] at h
          cases h
    | waitFailData =>
      by_cases hl : f.readRemain ≤ l.length
      · rw [consume_fail hs hl] at h
        exact .inr (closeAndError_cases hf h)
      · rw [consume_fail_part hs (by omega)] at h
        obtain ⟨rfl, rfl⟩ := Prod.mk.inj (Option.some.inj h)
        refine .inl ⟨gives_nil .., ⟨hf, .inr (.inr hs), ?_, fun h => ?_⟩, rfl⟩
        · exact Nat.sub_pos_of_lt (by omega)
        · rw [hs] at h
          cases h

/-! ## Data in several parts -/

/-- The header of a record in two parts. -/
theorem consume_header_append (hs : f.state = .waitHeader) (hle : f.readRemain ≤ recordSize)
    (hl : l.length < f.readRemain) (m : ℕ) : consume i (m + 1) f (l ++ l') =
      consume i (m + 1) { f with
        msg := storeAt (recordSize - f.readRemain) l f.msg
        readRemain := f.readRemain - l.length } l' := by
  have hoff : recordSize - (f.readRemain - l.length) = recordSize - f.readRemain + l.length := by
    omega
  by_cases hl' : f.readRemain - l.length ≤ l'.length
  · have htake : (l ++ l').take f.readRemain = l ++ l'.take (f.readRemain - l.length) := by
      rw [List.take_append, List.take_of_length_le (by omega)]
    have hhead : f.headed (l ++ l') = headed { f with
        msg := storeAt (recordSize - f.readRemain) l f.msg
        readRemain := f.readRemain - l.length } l' := by
      unfold headed
      dsimp only
      rw [hoff, storeAt_append, htake]
      rfl
    rw [consume_header hs (by rw [List.length_append]; omega),
      consume_header (f := { f with
        msg := storeAt (recordSize - f.readRemain) l f.msg
        readRemain := f.readRemain - l.length }) hs hl', hhead]
    dsimp only
    rw [List.drop_append, List.drop_of_length_le (l := l) (by omega), List.nil_append]
  · rw [consume_header_part hs (by rw [List.length_append]; omega),
      consume_header_part (f := { f with
        msg := storeAt (recordSize - f.readRemain) l f.msg
        readRemain := f.readRemain - l.length }) hs
        (by omega : l'.length < f.readRemain - l.length)]
    dsimp only
    rw [hoff, storeAt_append, List.length_append, Nat.sub_add_eq]

/-- The data of a record in two parts. -/
theorem consume_data_append (hs : f.state = .waitData) (hf : f.func = some g)
    (hl : l.length < f.readRemain)
    (h' : consume i (m + 1) { f with readRemain := f.readRemain - l.length } l' = some (f₂, es₂)) :
    ∃ es, consume i (m + 1) f (l ++ l') = some (f₂, es) ∧ contents es = l ++ contents es₂ ∧
      endings es = endings es₂ := by
  by_cases hl' : f.readRemain - l.length ≤ l'.length
  · rw [consume_data (f := { f with readRemain := f.readRemain - l.length }) hs hf hl'] at h'
    obtain ⟨⟨f', es'⟩, hrest, heq⟩ := Option.map_eq_some_iff.1 h'
    obtain ⟨rfl, rfl⟩ := Prod.mk.inj heq
    have hlen : (l ++ l').length ≠ f.readRemain ↔ l'.length ≠ f.readRemain - l.length := by
      rw [List.length_append]
      omega
    refine ⟨dataCalls g i (l ++ l') f.readRemain ++ es', ?_, ?_, ?_⟩
    · rw [consume_data hs hf (by rw [List.length_append]; omega), List.drop_append,
        List.drop_of_length_le (l := l) (by omega), List.nil_append]
      simp only [hlen]
      exact Option.map_eq_some_iff.2 ⟨_, hrest, rfl⟩
    · rw [contents_append, contents_append, contents_dataCalls, contents_dataCalls,
        List.take_append, List.take_of_length_le (l := l) (by omega), List.append_assoc]
    · rw [endings_append, endings_append, endings_dataCalls, endings_dataCalls]
  · rw [consume_data_part (f := { f with readRemain := f.readRemain - l.length }) hs hf
      (by dsimp only; omega)] at h'
    obtain ⟨rfl, rfl⟩ := Prod.mk.inj (Option.some.inj h')
    refine ⟨dataCalls g i (l ++ l') (l ++ l').length, ?_, ?_, ?_⟩
    · rw [consume_data_part hs hf (by rw [List.length_append]; omega), List.length_append,
        Nat.sub_add_eq]
    · rw [contents_dataCalls, contents_dataCalls, List.take_length, List.take_length]
    · rw [endings_dataCalls, endings_dataCalls]

/-- The text of an error in two parts. -/
theorem consume_fail_append (hs : f.state = .waitFailData) (hf : f.func = some g)
    (hl : l.length < f.readRemain) (m : ℕ) : consume i (m + 1) f (l ++ l') =
      consume i (m + 1) { f with readRemain := f.readRemain - l.length } l' := by
  by_cases hl' : f.readRemain - l.length ≤ l'.length
  · rw [consume_fail hs (by rw [List.length_append]; omega),
      consume_fail (f := { f with readRemain := f.readRemain - l.length }) hs hl',
      closeAndError_eq hf,
      closeAndError_eq (f := { f with readRemain := f.readRemain - l.length }) hf]
  · rw [consume_fail_part hs (by rw [List.length_append]; omega), List.length_append,
      Nat.sub_add_eq, consume_fail_part (f := { f with readRemain := f.readRemain - l.length }) hs
      (by dsimp only; omega)]

/-- **Data may come in parts**: what is left waiting by the first part goes on with the second as if
they had come together. -/
theorem consume_append (hf : f.func = some g) (hr : f.Ready)
    (h : consume i n f l = some (f₁, es₁)) (hlive : f₁.state ≠ .free)
    (h' : consume i m f₁ l' = some (f₂, es₂)) :
    ∃ k es, consume i k f (l ++ l') = some (f₂, es) ∧
      contents es = contents es₁ ++ contents es₂ ∧ endings es = endings es₁ ++ endings es₂ := by
  have hnot {s : File φ} {es' : List (FileEvent φ)} (hc : s.closeAndError i = some (f₁, es'))
      (hf' : s.func = some g) : False :=
    hlive (by rw [(closeAndError_cases hf' hc).1]; rfl)
  induction n generalizing f l es₁ with
  | zero => cases h
  | succ n ih =>
    cases hs : f.state with
    | free | waitOpen =>
      rw [consume_idle (by simp [hs])] at h
      exact (hnot h hf).elim
    | waitHeader =>
      by_cases hl : f.readRemain ≤ l.length
      · have hhead : f.headed (l ++ l') = f.headed l := by
          unfold headed
          rw [List.take_append_of_le_length hl]
        have hnext (k : ℕ) := consume_header (i := i) (n := k) (l := l ++ l') hs
          (by rw [List.length_append]; omega)
        rw [hhead, List.drop_append_of_le_length hl] at hnext
        rw [consume_header hs hl] at h
        split_ifs at h hnext with h1 h2
        · obtain ⟨k, es, hk, hes⟩ := ih (f := { f.headed l with state := .waitData }) hf
            (fun h => FileState.noConfusion h) h
          exact ⟨k + 1, es, (hnext k).trans hk, hes⟩
        · obtain ⟨k, es, hk, hes⟩ := ih (f := { f.headed l with state := .waitFailData }) hf
            (fun h => FileState.noConfusion h) h
          exact ⟨k + 1, es, (hnext k).trans hk, hes⟩
        · exact (hnot (s := f.headed l) h hf).elim
      · rw [consume_header_part hs (by omega)] at h
        obtain ⟨rfl, rfl⟩ := Prod.mk.inj (Option.some.inj h)
        refine ⟨m + 1, es₂, ?_, rfl, rfl⟩
        rw [consume_header_append hs (hr hs).2 (by omega)]
        exact consume_succ h'
    | waitData =>
      by_cases hl : f.readRemain ≤ l.length
      · rw [consume_data hs hf hl] at h
        obtain ⟨⟨f', es'⟩, hrest, heq⟩ := Option.map_eq_some_iff.1 h
        obtain ⟨rfl, rfl⟩ := Prod.mk.inj heq
        split_ifs at hrest with hdone hlen
        · obtain ⟨rfl, -⟩ := Prod.mk.inj (Option.some.inj hrest)
          exact absurd rfl hlive
        · obtain ⟨rfl, -⟩ := Prod.mk.inj (Option.some.inj hrest)
          exact absurd rfl hlive
        · obtain ⟨k, es, hk, hcont, hend⟩ :=
            ih (f := { f with readRemain := recordSize, state := .waitHeader }) hf
              (fun _ => ⟨Nat.succ_pos 7, le_rfl⟩) hrest
          refine ⟨k + 1, dataCalls g i (l ++ l') f.readRemain ++ es, ?_, ?_, ?_⟩
          · rw [consume_data hs hf (by rw [List.length_append]; omega), if_neg hdone,
              List.drop_append_of_le_length hl, hk]
            rfl
          · rw [contents_append, contents_append, contents_dataCalls, contents_dataCalls,
              List.take_append_of_le_length hl, hcont, List.append_assoc]
          · rw [endings_append, endings_append, endings_dataCalls, endings_dataCalls, hend,
              List.nil_append, List.nil_append]
      · rw [consume_data_part hs hf (by omega)] at h
        obtain ⟨rfl, rfl⟩ := Prod.mk.inj (Option.some.inj h)
        cases m with
        | zero => cases h'
        | succ m =>
          obtain ⟨es, hes, hcont, hend⟩ := consume_data_append hs hf (by omega) h'
          refine ⟨m + 1, es, hes, ?_, ?_⟩
          · rw [hcont, contents_dataCalls, List.take_length]
          · rw [hend, endings_dataCalls, List.nil_append]
    | waitFailData =>
      by_cases hl : f.readRemain ≤ l.length
      · rw [consume_fail hs hl] at h
        exact (hnot h hf).elim
      · rw [consume_fail_part hs (by omega)] at h
        obtain ⟨rfl, rfl⟩ := Prod.mk.inj (Option.some.inj h)
        cases m with
        | zero => cases h'
        | succ m =>
          exact ⟨m + 1, es₂, (consume_fail_append hs hf (by omega) m).trans h', rfl, rfl⟩

end Results

end File

end TPadFire.Adb
