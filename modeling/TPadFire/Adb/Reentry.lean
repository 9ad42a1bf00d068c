import TPadFire.Adb.FileTable

/-!
# Calls out of the client's functions

The client's functions may call `ADBFileRead` and `ADBFileClose`. `ADBFileCallback` does not expect
it: it goes on with the entry as it then is. Here its loop is one on the whole table, in which a
function that is called answers with calls of the module (`Replies`).

`callbackWith_passive` is what `Files.callback` and all that is proved of it rest on: functions that
call nothing of the module leave the loop to the entry. `consumeWith_closing` is what becomes of a
file that is closed by its own function: the loop takes the data that it has just handed over for
the header of a record of the cleared entry, and then calls a null pointer
(`consumeWith_closing_null`).
-/

namespace TPadFire.Adb

open Firmware (Byte)

/-- The calls of the module that the client's functions answer with. -/
abbrev Replies (φ : Type*) := FileEvent φ → Files φ → List (FileOp φ)

variable {φ : Type*}

/-- A difference of 32-bit words. -/
def sub32 (n k : ℕ) : ℕ := if k ≤ n then n - k else n + 2 ^ 32 - k

namespace Files

/-- Put events before those of a result. -/
def after (es : List (TableEvent φ)) (r : Option (Files φ × List (TableEvent φ))) :
    Option (Files φ × List (TableEvent φ)) := r.map fun r => (r.1, es ++ r.2)

/-- The function of the entry `i` is called, and calls what it answers with. -/
def invoke (reply : Replies φ) (i : FileHandle) (e : φ → FileEvent φ) (fs : Files φ) :
    Option (Files φ × List (TableEvent φ)) :=
  (fs i).func.bind fun g => after [.did (e g)] (FileOp.run (reply (e g) fs) fs)

/-- If there are data, call the client's function with the first `n` bytes of them. -/
def callDataWith (reply : Replies φ) (i : FileHandle) (l : List Byte) (n : ℕ) (fs : Files φ) :
    Option (Files φ × List (TableEvent φ)) :=
  if l.length > 0 then fs.invoke reply i (.data · i (l.take n)) else some (fs, [])

/-- The label `error` of `ADBFileCallback`. -/
def errorWith (reply : Replies φ) (i : FileHandle) (fs : Files φ) :
    Option (Files φ × List (TableEvent φ)) :=
  (fs.invoke reply i (.finish · i 1)).map fun r => (Function.update r.1 i .zero, r.2)

/-- The label `close_and_error`. -/
def closeAndErrorWith (reply : Replies φ) (i : FileHandle) (fs : Files φ) :
    Option (Files φ × List (TableEvent φ)) :=
  after [.did (.close (fs i).handle)] (fs.errorWith reply i)

/-- The loop of `ADBFileCallback` for the entry `i`, with `n` rounds left, on the data `l`. -/
def consumeWith (reply : Replies φ) (i : FileHandle) :
    ℕ → Files φ → List Byte → Option (Files φ × List (TableEvent φ))
  | 0, _, _ => none
  | n + 1, fs, l =>
    match (fs i).state with
    | .free | .waitOpen => fs.closeAndErrorWith reply i
    | .waitHeader =>
      if l.length ≥ (fs i).readRemain then
        let f := (fs i).headed l
        let l := l.drop (fs i).readRemain
        if f.msgId = idData ∨ f.msgId = idDone then
          consumeWith reply i n (Function.update fs i { f with state := .waitData }) l
        else if f.msgId = idFail then
          consumeWith reply i n (Function.update fs i { f with state := .waitFailData }) l
        else closeAndErrorWith reply i (Function.update fs i f)
      else
        some (Function.update fs i { fs i with
          msg := storeAt (recordSize - (fs i).readRemain) l (fs i).msg
          readRemain := (fs i).readRemain - l.length }, [])
    | .waitData =>
      if l.length ≥ (fs i).readRemain then
        (fs.callDataWith reply i l (fs i).readRemain).bind fun (fs, es) => after es <|
          -- from here on the entry is what the function has left of it
          if (fs i).msgId = idDone then
            if l.length ≠ (fs i).readRemain then fs.closeAndErrorWith reply i
            else (fs.invoke reply i (.finish · i 0)).map fun (fs, es) =>
              (Function.update fs i .zero, es ++ [.did (.close (fs i).handle)])
          else
            consumeWith reply i n
              (Function.update fs i { fs i with readRemain := recordSize, state := .waitHeader })
              (l.drop (fs i).readRemain)
      else
        (fs.callDataWith reply i l l.length).map fun (fs, es) =>
          (Function.update fs i { fs i with readRemain := sub32 (fs i).readRemain l.length }, es)
    | .waitFailData =>
      if l.length ≥ (fs i).readRemain then fs.closeAndErrorWith reply i
      else some (Function.update fs i { fs i with readRemain := (fs i).readRemain - l.length }, [])

/-- `ADBFileCallback` -/
def callbackWith (reply : Replies φ) (h : Handle) (data : Option (List Byte)) (fs : Files φ) :
    Option (Files φ × List (TableEvent φ)) :=
  (fs.lookup h).bind fun i =>
    match data with
    | none => fs.errorWith reply i
    | some l => fs.consumeWith reply i (File.rounds l) l

/-- What the loop does to the entry `i`, as something that it does to the table. -/
def lift (i : FileHandle) (fs : Files φ) (r : Option (File φ × List (FileEvent φ))) :
    Option (Files φ × List (TableEvent φ)) :=
  r.map fun r => (Function.update fs i r.1, r.2.map .did)

variable {reply : Replies φ} {i : FileHandle} {fs : Files φ} {n : ℕ} {l : List Byte}

theorem lift_update (f : File φ) (r : Option (File φ × List (FileEvent φ))) :
    lift i (Function.update fs i f) r = lift i fs r := by
  unfold lift
  simp only [Function.update_idem]

theorem lift_after (es : List (FileEvent φ)) (r : Option (File φ × List (FileEvent φ))) :
    lift i fs (File.after es r) = after (es.map .did) (lift i fs r) := by
  unfold lift File.after after
  simp only [Option.map_map, Function.comp_def, List.map_append]

section Passive

variable (hreply : ∀ e fs, reply e fs = [])

include hreply

theorem invoke_passive (e : φ → FileEvent φ) (fs : Files φ) :
    fs.invoke reply i e = (fs i).func.map fun g => (fs, [.did (e g)]) := by
  unfold invoke
  simp only [hreply]
  exact Option.map_eq_bind.symm

theorem errorWith_passive (fs : Files φ) : fs.errorWith reply i = lift i fs ((fs i).error i) := by
  unfold errorWith lift File.error
  rw [invoke_passive hreply, Option.map_map, Option.map_map]
  rfl

theorem closeAndErrorWith_passive (fs : Files φ) :
    fs.closeAndErrorWith reply i = lift i fs ((fs i).closeAndError i) := by
  unfold closeAndErrorWith File.closeAndError
  rw [errorWith_passive hreply]
  exact (lift_after [_] _).symm

theorem callDataWith_passive (k : ℕ) (fs : Files φ) :
    fs.callDataWith reply i l k =
      ((fs i).callData i l k).map fun es => (fs, es.map .did) := by
  unfold callDataWith File.callData
  split_ifs with hl
  · rw [invoke_passive hreply, Option.map_map]
    rfl
  · rfl

omit hreply in
/-- A round of the loop that goes on with the entry `f`. -/
theorem lift_consume {f : File φ}
    (ih : ∀ fs l, consumeWith reply i n fs l = lift i fs (File.consume i n (fs i) l)) :
    consumeWith reply i n (Function.update fs i f) l = lift i fs (File.consume i n f l) := by
  rw [ih, Function.update_self, lift_update]

/-- The loop on the table is the loop on the entry. -/
theorem consumeWith_passive (fs : Files φ) (l : List Byte) :
    consumeWith reply i n fs l = lift i fs (File.consume i n (fs i) l) := by
  induction n generalizing fs l with
  | zero => rfl
  | succ n ih =>
    rw [consumeWith]
    cases hs : (fs i).state with
    | free | waitOpen =>
      rw [File.consume_idle (by simp [hs])]
      exact closeAndErrorWith_passive hreply fs
    | waitHeader =>
      by_cases hl : (fs i).readRemain ≤ l.length
      · rw [File.consume_header hs hl]
        simp only [if_pos hl]
        split_ifs
        · exact lift_consume ih
        · exact lift_consume ih
        · rw [closeAndErrorWith_passive hreply, Function.update_self, lift_update]
      · rw [File.consume_header_part hs (not_le.1 hl)]
        exact if_neg hl
    | waitData =>
      rw [File.consume]
      simp only [hs]
      by_cases hl : l.length ≥ (fs i).readRemain
      · rw [if_pos hl, if_pos hl, callDataWith_passive hreply]
        cases (fs i).callData i l (fs i).readRemain with
        | none => rfl
        | some es =>
          rw [Option.map_some, Option.bind_some, Option.bind_some, lift_after]
          dsimp only
          split_ifs
          · rw [closeAndErrorWith_passive hreply]
          · rw [invoke_passive hreply]
            unfold lift
            rw [Option.map_map, Option.map_map]
            rfl
          · rw [lift_consume ih]
      · rw [if_neg hl, if_neg hl, callDataWith_passive hreply]
        unfold lift
        rw [Option.map_map, Option.map_map]
        have hsub : sub32 (fs i).readRemain l.length = (fs i).readRemain - l.length :=
          if_pos (not_le.1 hl).le
        simp only [Function.comp_def, hsub, hs]
    | waitFailData =>
      by_cases hl : (fs i).readRemain ≤ l.length
      · rw [File.consume_fail hs hl]
        exact (if_pos hl).trans (closeAndErrorWith_passive hreply fs)
      · rw [File.consume_fail_part hs (not_le.1 hl)]
        exact if_neg hl

/-- **Functions that call nothing of the module** leave `ADBFileCallback` to the loop on the
entry. -/
theorem callbackWith_passive (h : Handle) (data : Option (List Byte)) (fs : Files φ) :
    fs.callbackWith reply h data = FileOp.apply (.adbFileCallback h data) fs := by
  unfold callbackWith FileOp.apply callback
  dsimp only
  rw [Option.map_bind]
  refine Option.bind_congr fun i _ => ?_
  have hlift (r : Option (File φ × List (FileEvent φ))) : lift i fs r =
      (r.map fun r => (Function.update fs i r.1, r.2)).map fun r => (r.1, r.2.map .did) := by
    unfold lift
    rw [Option.map_map]
    rfl
  cases data with
  | none => exact (errorWith_passive hreply fs).trans (hlift _)
  | some l => exact (consumeWith_passive hreply fs l).trans (hlift _)

end Passive

/-! ## A file that its own function closes -/

section Closing

variable {g : φ}

/-- The entry that the loop goes on with. -/
def cleared : File φ := { File.zero with readRemain := recordSize, state := .waitHeader }

/-- **A file that is closed by its function** when it is called for the data of a record: the loop
goes on with the cleared entry and the same data. -/
theorem consumeWith_closing (hs : (fs i).state = .waitData) (hf : (fs i).func = some g)
    (hl : (fs i).readRemain ≤ l.length) (hpos : 0 < l.length)
    (hreply : reply (.data g i (l.take (fs i).readRemain)) fs = [.adbFileClose i]) :
    consumeWith reply i (n + 1) fs l =
      after [.did (.data g i (l.take (fs i).readRemain)), .closed i (fs i).handle]
        (consumeWith reply i n (Function.update fs i cleared) l) := by
  have hcall : fs.callDataWith reply i l (fs i).readRemain =
      some (Function.update fs i .zero,
        [.did (.data g i (l.take (fs i).readRemain)), .closed i (fs i).handle]) := by
    unfold callDataWith invoke
    rw [if_pos hpos, hf, Option.bind_some, hreply]
    simp [FileOp.run, Lts.perform, FileOp.apply, FileOp.events, adbFileClose, after, hs]
  have hid : (Function.update fs i (File.zero : File φ) i).msgId ≠ idDone := by
    have hzero : word (Block.contents (fun _ : Fin recordSize => (0 : Byte)) recordSize) 0 ≠
        idDone := by decide
    rw [Function.update_self]
    exact hzero
  rw [consumeWith]
  simp only [hs]
  rw [if_pos hl, hcall, Option.bind_some]
  dsimp only
  rw [if_neg hid]
  simp only [Function.update_self, Function.update_idem]
  rfl

/-- A header with no known id, for an entry without a function. -/
theorem consumeWith_null (hs : (fs i).state = .waitHeader) (hf : (fs i).func = none)
    (hl : (fs i).readRemain ≤ l.length)
    (hid : ((fs i).headed l).msgId ∉ [idData, idDone, idFail]) :
    consumeWith reply i (n + 1) fs l = none := by
  simp only [List.mem_cons, List.not_mem_nil, or_false, not_or] at hid
  obtain ⟨hdata, hdone, hfail⟩ := hid
  have hnull : ((fs i).headed l).func = none := hf
  rw [consumeWith]
  simp only [hs]
  rw [if_pos hl, if_neg (not_or.2 ⟨hdata, hdone⟩), if_neg hfail]
  unfold closeAndErrorWith errorWith invoke
  rw [Function.update_self, hnull]
  rfl

/-- **What it does then**: unless the data begin like a record, a null pointer is called, however
many rounds are left. -/
theorem consumeWith_closing_null (hs : (fs i).state = .waitData) (hf : (fs i).func = some g)
    (hl : (fs i).readRemain ≤ l.length) (hlen : recordSize ≤ l.length)
    (hid : word (l.take recordSize) 0 ∉ [idData, idDone, idFail])
    (hreply : reply (.data g i (l.take (fs i).readRemain)) fs = [.adbFileClose i]) :
    consumeWith reply i (n + 2) fs l = none := by
  have hpos : 0 < l.length := lt_of_lt_of_le (by decide) hlen
  -- the header of the cleared entry is the first bytes of the data
  have hhead : (cleared.headed l : File φ).msgId = word (l.take recordSize) 0 := by
    have hcontents := contents_storeAt (b := (cleared : File φ).msg) (List.length_take_of_le hlen)
    unfold File.msgId
    rw [← hcontents]
    rfl
  have hself : Function.update fs i cleared i = cleared := Function.update_self ..
  rw [consumeWith_closing hs hf hl hpos hreply, consumeWith_null (by rw [hself]; rfl)
    (by rw [hself]; rfl) (by rw [hself]; exact hlen) (by rw [hself, hhead]; exact hid)]
  rfl

end Closing

end Files

end TPadFire.Adb
