import TPadFire.Adb.Sync
import TPadFire.Foundations.Monitor
import Mathlib.Data.List.FinRange

/-!
# The table of files

The rest of `adb_file.c`: the table of the files that are read, with the calls of its client
(`ADBFileRead`, `ADBFileClose`), of the program (`ADBFileInit`, `ADBFileTasks`) and of the ADB layer
(`ADBFileCallback`, which looks its entry up by the channel). The answers of the layer, the channel
that `ADBOpen` gives and the channels that are ready, are part of a call. A call has no result if an
assertion fails or a null pointer is called. The client's functions are taken to call nothing of the
module: the calls of a run come one after another, and none out of an `ADBFileCallback` (for that
see `Reentry`).

`table_allowed` is what the header promises of the client's function, over all runs.
`received_among` is `file_received` for one of the files, whatever happens to the other.
-/

namespace TPadFire.Adb

open Firmware (Byte)

/-- `ADB_FILE_MAX_PATH_LENGTH` -/
abbrev adbFileMaxPathLength : ℕ := 64

/-- `adb_files` -/
abbrev Files (φ : Type*) := FileHandle → File φ

/-- What the table does outside of it. -/
inductive TableEvent (φ : Type*)
  /-- `ADBFileRead` has taken an entry. -/
  | opened (i : FileHandle) (func : φ)
  /-- `ADBWrite` is called. -/
  | request (h : Option Handle) (l : List Byte)
  /-- `ADBFileCallback` does something. -/
  | did (e : FileEvent φ)
  /-- `ADBFileClose` has freed an entry. -/
  | closed (i : FileHandle) (h : Option Handle)
  /-- The table is cleared. -/
  | cleared
  deriving DecidableEq

variable {φ : Type*}

namespace Files

/-- The first free entry, as `ADBFileRead` looks for it. -/
def firstFree (fs : Files φ) : Option FileHandle :=
  (List.finRange adbFileMaxFiles).find? fun i => decide ((fs i).state = .free)

/-- The first entry with a channel, as `ADBFileCallback` looks for it. -/
def lookup (h : Handle) (fs : Files φ) : Option FileHandle :=
  (List.finRange adbFileMaxFiles).find? fun i => decide ((fs i).handle = some h)

/-- `ADBFileInit` -/
def init (_ : Files φ) : Files φ := fun _ => .zero

/-- `ADBFileRead`, when `ADBOpen` gives `channel`. -/
def adbFileRead (path : List Byte) (func : φ) (channel : Option Handle) (fs : Files φ) :
    Option (Files φ × Option FileHandle) :=
  if path.length < adbFileMaxPathLength then
    match fs.firstFree with
    | none => some (fs, none)
    | some i =>
      let f := { fs i with handle := channel }
      if channel = none then some (Function.update fs i f, none)
      else
        some (Function.update fs i { f with func := some func, path := path, state := .waitOpen },
          some i)
  else none

/-- `ADBFileClose` -/
def adbFileClose (i : FileHandle) (fs : Files φ) : Files φ :=
  if (fs i).state ≠ .free then Function.update fs i .zero else fs

/-- The entry is to ask for its file: its channel is ready. -/
def asks (ready : Handle → Bool) (f : File φ) : Bool :=
  f.state = .waitOpen && f.handle.any ready

/-- `ADBFileTasks`, when the channels `ready` are ready. -/
def tasks (ready : Handle → Bool) (fs : Files φ) : Files φ := fun i =>
  if asks ready (fs i) then { fs i with readRemain := recordSize, state := .waitHeader } else fs i

/-- The calls of `ADBWrite` by `ADBFileTasks`: the request lies in front of the path. -/
def requests (ready : Handle → Bool) (fs : Files φ) : List (TableEvent φ) :=
  (List.finRange adbFileMaxFiles).flatMap fun i =>
    if asks ready (fs i) then [.request (fs i).handle (record idRecv (fs i).path)] else []

/-- `ADBFileCallback`, when the client's functions call nothing of the module. -/
def callback (h : Handle) (data : Option (List Byte)) (fs : Files φ) :
    Option (Files φ × List (FileEvent φ)) :=
  (fs.lookup h).bind fun i =>
    ((fs i).callback i data).map fun r => (Function.update fs i r.1, r.2)

end Files

/-- A call of the table. -/
inductive FileOp (φ : Type*)
  | adbFileInit
  | adbFileRead (path : List Byte) (func : φ) (channel : Option Handle)
  | adbFileClose (i : FileHandle)
  | adbFileTasks (ready : Handle → Bool)
  | adbFileCallback (h : Handle) (data : Option (List Byte))

namespace FileOp

/-- A call, and what it does outside of the table. -/
def apply : FileOp φ → Files φ → Option (Files φ × List (TableEvent φ))
  | adbFileInit, fs => some (fs.init, [.cleared])
  | adbFileRead path func channel, fs =>
    (fs.adbFileRead path func channel).map fun r => (r.1, r.2.toList.map (.opened · func))
  | adbFileClose i, fs =>
    some (fs.adbFileClose i, if (fs i).state ≠ .free then [.closed i (fs i).handle] else [])
  | adbFileTasks ready, fs => some (fs.tasks ready, fs.requests ready)
  | adbFileCallback h data, fs => (fs.callback h data).map fun r => (r.1, r.2.map .did)

/-- What a call does outside of the table. -/
def events (fs : Files φ) (op : FileOp φ) : List (TableEvent φ) :=
  ((op.apply fs).map Prod.snd).getD []

end FileOp

/-- The table as a system of calls. -/
def fileTable (φ : Type*) : Lts (Files φ) (FileOp φ) :=
  ⟨fun fs op fs' => ∃ es, op.apply fs = some (fs', es)⟩

/-- Calls that are made one after another, and what they do outside of the table. -/
def FileOp.run : List (FileOp φ) → Files φ → Option (Files φ × List (TableEvent φ)) :=
  Lts.perform (fun op fs => (op.apply fs).map Prod.fst) FileOp.events

theorem emits_of_run (ops : List (FileOp φ)) (fs : Files φ) {es : List (TableEvent φ)}
    (h : (FileOp.run ops fs).map Prod.snd = some es) :
    ∃ fs', (fileTable φ).Emits FileOp.events fs ops es fs' := by
  obtain ⟨⟨fs', es'⟩, hrun, rfl⟩ := Option.map_eq_some_iff.1 h
  refine ⟨fs', Lts.emits_of_perform (fun op fs fs' happly => ?_) hrun⟩
  obtain ⟨r, hr, rfl⟩ := Option.map_eq_some_iff.1 happly
  exact ⟨r.2, hr⟩

/-! ## Calls -/

namespace Files

variable {fs fs' : Files φ} {i j : FileHandle} {h : Handle} {es : List (FileEvent φ)}

theorem firstFree_free (hi : fs.firstFree = some i) : (fs i).state = .free := by
  unfold firstFree at hi
  simpa using List.find?_some hi

theorem lookup_handle (hi : fs.lookup h = some i) : (fs i).handle = some h := by
  unfold lookup at hi
  simpa using List.find?_some hi

/-- What `ADBFileRead` does: nothing, if the table is full; else it fills in the first free entry,
or leaves it free if there is no channel. -/
theorem adbFileRead_cases {path : List Byte} {func : φ} {channel : Option Handle}
    {r : Option FileHandle} (hread : fs.adbFileRead path func channel = some (fs', r)) :
    (fs' = fs ∧ r = none) ∨ ∃ i, (fs i).state = .free ∧
      ((fs' = Function.update fs i { fs i with handle := channel } ∧ r = none ∧ channel = none) ∨
        (fs' = Function.update fs i { fs i with
          handle := channel, func := some func, path := path, state := .waitOpen } ∧
          r = some i)) := by
  unfold adbFileRead at hread
  by_cases hlen : path.length < adbFileMaxPathLength
  · rw [if_pos hlen] at hread
    cases hfree : fs.firstFree with
    | none =>
      rw [hfree] at hread
      obtain ⟨rfl, rfl⟩ := Prod.mk.inj (Option.some.inj hread)
      exact .inl ⟨rfl, rfl⟩
    | some i =>
      rw [hfree] at hread
      dsimp only at hread
      refine .inr ⟨i, firstFree_free hfree, ?_⟩
      split_ifs at hread
      · obtain ⟨rfl, rfl⟩ := Prod.mk.inj (Option.some.inj hread)
        exact .inl ⟨rfl, rfl, ‹_›⟩
      · obtain ⟨rfl, rfl⟩ := Prod.mk.inj (Option.some.inj hread)
        exact .inr ⟨rfl, rfl⟩
  · rw [if_neg hlen] at hread
    cases hread

theorem tasks_handle (ready : Handle → Bool) (fs : Files φ) (i : FileHandle) :
    (fs.tasks ready i).handle = (fs i).handle := by
  unfold tasks
  split_ifs <;> rfl

theorem tasks_free_iff (ready : Handle → Bool) (fs : Files φ) (i : FileHandle) :
    (fs.tasks ready i).state = .free ↔ (fs i).state = .free := by
  unfold tasks asks
  cases hs : (fs i).state <;> simp [hs]
  split_ifs <;> simp [hs]

/-- **Which entry is found** for a channel: the first that has it, in use or not. -/
theorem lookup_eq_some_iff :
    fs.lookup h = some i ↔ (fs i).handle = some h ∧ ∀ j < i, (fs j).handle ≠ some h := by
  unfold lookup
  rw [List.find?_eq_some_iff_getElem]
  constructor
  · rintro ⟨hi, k, hk, hki, hbefore⟩
    have hval : (k : ℕ) = i := by
      rw [← hki, List.getElem_finRange]
      rfl
    refine ⟨by simpa using hi, fun j hj => ?_⟩
    have := hbefore j (by rw [hval]; exact hj)
    simpa using this
  · rintro ⟨hi, hbefore⟩
    refine ⟨by simpa using hi, i, ?_, List.getElem_finRange _, fun k hk => ?_⟩
    · rw [List.length_finRange]
      exact i.isLt
    simpa using hbefore ⟨k, hk.trans i.isLt⟩ hk

end Files

/-! ## The client's function -/

/-- The rule for the function of the client, for the entry `i`: once the entry has been taken for a
function, this function is called for it, and no other; after its call with a null pointer, or after
`ADBFileClose`, it is not called until the entry is taken again. -/
def allowed [DecidableEq φ] (i : FileHandle) : Option φ → TableEvent φ → Option (Option φ)
  | m, .opened j g => if j = i then if m = none then some (some g) else none else some m
  | m, .did (.data g j _) => if j = i then if m = some g then some m else none else some m
  | m, .did (.finish g j c) =>
    if j = i then if m = some g ∧ (c = 0 ∨ c = 1) then some none else none else some m
  | m, .did (.close _) => some m
  | m, .request _ _ => some m
  | m, .closed j _ => if j = i then some none else some m
  | _, .cleared => some none

namespace File

/-- An entry is free, or has a function to call. -/
structure Valid (f : File φ) : Prop where
  free : f.state = .free → f.func = none
  live : f.state ≠ .free → f.func ≠ none
  ready : f.Ready

theorem valid_zero : (zero : File φ).Valid :=
  ⟨fun _ => rfl, fun h => absurd rfl h, FileState.noConfusion⟩

theorem Reading.valid {f : File φ} {g : φ} (h : Reading g f) : f.Valid :=
  ⟨fun hs => absurd hs h.live, fun _ => by simp [h.func], h.ready⟩

/-- A file takes whatever is brought to its entry. -/
theorem callback_isSome {f : File φ} {i : FileHandle} (hf : f.Valid) (hs : f.state ≠ .free)
    (data : Option (List Byte)) : ∃ r, f.callback i data = some r := by
  obtain ⟨g, hg⟩ := Option.ne_none_iff_exists'.1 (hf.live hs)
  cases data with
  | none =>
    unfold callback error
    rw [hg]
    exact ⟨_, rfl⟩
  | some l =>
    refine consume_total hg hf.ready ?_
    unfold rounds
    split_ifs <;> omega

/-- How the calls of `ADBFileCallback` end. -/
def Ends (g : φ) (i : FileHandle) (es : List (FileEvent φ)) : Prop :=
  (∃ h, Ending g i h es) ∨ es = [.finish g i 1]

/-- What `ADBFileCallback` does with an entry. -/
theorem callback_cases {f f' : File φ} {i : FileHandle} {data : Option (List Byte)}
    {es : List (FileEvent φ)} (hf : f.Valid) (h : f.callback i data = some (f', es)) :
    ∃ g, f.func = some g ∧ ((Gives g i es [] ∧ Reading g f' ∧ f'.handle = f.handle) ∨
      (f' = zero ∧ ∃ es', Ends g i es' ∧ Gives g i es es')) := by
  cases hg : f.func with
  | none =>
    have hs : f.state = .free := by
      by_contra hs
      exact hf.live hs hg
    cases data with
    | none =>
      simp only [callback, error, hg] at h
      cases h
    | some l =>
      unfold callback rounds at h
      dsimp only at h
      rw [consume_idle (.inl hs)] at h
      simp only [closeAndError, error, hg] at h
      cases h
  | some g =>
    refine ⟨g, rfl, ?_⟩
    cases data with
    | none =>
      simp only [callback, error, hg] at h
      obtain ⟨rfl, rfl⟩ := Prod.mk.inj (Option.some.inj h)
      exact .inr ⟨rfl, _, .inr rfl, gives_nil ..⟩
    | some l =>
      rcases consume_cases hg hf.ready h with hlive | ⟨hz, es', he, hgive⟩
      · exact .inl hlive
      · exact .inr ⟨hz, es', .inl ⟨_, he⟩, hgive⟩

end File

section Allowed

variable [DecidableEq φ] {i j : FileHandle} {g : φ} {m : Option φ} {es es' : List (FileEvent φ)}

/-- Data for the client keep to the rule. -/
theorem foldlM_data (cs : List (List Byte)) (hm : j = i → m = some g) :
    ((cs.map (.data g j)).map .did).foldlM (allowed i) m = some m := by
  induction cs with
  | nil => rfl
  | cons c cs ih =>
    rw [List.map_cons, List.map_cons, List.foldlM_cons]
    have hc : allowed i m (.did (.data g j c)) = some m := by
      unfold allowed
      dsimp only
      split_ifs with hj hg
      · rfl
      · exact absurd (hm hj) hg
      · rfl
    rw [hc]
    exact ih

/-- The end of a file keeps to the rule. -/
theorem foldlM_ends (he : File.Ends g j es) (hm : j = i → m = some g) :
    (es.map .did).foldlM (allowed i) m = some (if j = i then none else m) := by
  have hfinish {c : ℕ} (hc : c = 0 ∨ c = 1) :
      allowed i m (.did (.finish g j c)) = some (if j = i then none else m) := by
    unfold allowed
    dsimp only
    split_ifs with hj hg
    · rfl
    · exact absurd ⟨hm hj, hc⟩ hg
    · rfl
  rcases he with ⟨h, he⟩ | rfl
  · cases he with
    | eof =>
      rw [List.map_cons, List.foldlM_cons, hfinish (.inl rfl)]
      rfl
    | failed =>
      change [TableEvent.did (.finish g j 1)].foldlM (allowed i) m = _
      rw [List.foldlM_cons, hfinish (.inr rfl)]
      rfl
  · rw [List.map_cons, List.foldlM_cons, hfinish (.inr rfl)]
    rfl

theorem foldlM_gives (hg : File.Gives g j es es') (hm : j = i → m = some g) :
    (es.map .did).foldlM (allowed i) m = (es'.map .did).foldlM (allowed i) m := by
  obtain ⟨cs, rfl⟩ := hg
  rw [List.map_append, List.foldlM_append, foldlM_data cs hm]
  rfl

/-- The requests keep to the rule. -/
theorem foldlM_requests (ready : Handle → Bool) (fs : Files φ) :
    (fs.requests ready).foldlM (allowed i) m = some m := by
  have hall : ∀ e ∈ fs.requests ready, ∃ h l, e = TableEvent.request h l := by
    intro e he
    obtain ⟨j, -, hj⟩ := List.mem_flatMap.1 he
    split_ifs at hj
    · exact ⟨_, _, List.mem_singleton.1 hj⟩
    · exact absurd hj List.not_mem_nil
  revert hall
  induction fs.requests ready with
  | nil => exact fun _ => rfl
  | cons e es ih =>
    intro hall
    obtain ⟨h, l, rfl⟩ := hall e List.mem_cons_self
    rw [List.foldlM_cons]
    exact ih fun e he => hall e (List.mem_cons_of_mem _ he)

end Allowed

/-- The table as the rule sees it: the function of the entry is the one it was taken for. -/
structure Follows (i : FileHandle) (fs : Files φ) (m : Option φ) : Prop where
  valid : ∀ j, (fs j).Valid
  func : m = (fs i).func

theorem Follows.update {i j : FileHandle} {fs : Files φ} {f : File φ} {m : Option φ}
    (h : Follows i fs m) (hf : f.Valid) :
    Follows i (Function.update fs j f) (if j = i then f.func else m) := by
  refine ⟨fun k => ?_, ?_⟩
  · by_cases hk : k = j
    · rw [hk, Function.update_self]
      exact hf
    · rw [Function.update_of_ne hk]
      exact h.valid k
  · split_ifs with hj
    · rw [hj, Function.update_self]
    · rw [Function.update_of_ne (Ne.symm hj)]
      exact h.func

section Calls

variable [DecidableEq φ] {i : FileHandle} {fs fs' : Files φ} {m : Option φ}

/-- **A call keeps to the rule.** -/
theorem Follows.apply (hf : Follows i fs m) {op : FileOp φ} {es : List (TableEvent φ)}
    (h : op.apply fs = some (fs', es)) :
    ∃ m', es.foldlM (allowed i) m = some m' ∧ Follows i fs' m' := by
  cases op with
  | adbFileInit =>
    obtain ⟨rfl, rfl⟩ := Prod.mk.inj (Option.some.inj h)
    exact ⟨none, rfl, fun _ => File.valid_zero, rfl⟩
  | adbFileRead path func channel =>
    obtain ⟨⟨fs₁, r⟩, hread, heq⟩ := Option.map_eq_some_iff.1 h
    obtain ⟨rfl, rfl⟩ := Prod.mk.inj heq
    rcases Files.adbFileRead_cases hread with ⟨rfl, rfl⟩ | ⟨j, hs, ⟨rfl, rfl, -⟩ | ⟨rfl, rfl⟩⟩
    · exact ⟨m, rfl, hf⟩
    · have hnone := (hf.valid j).free hs
      have hupd := hf.update (j := j) (f := { fs j with handle := channel })
        ⟨fun _ => hnone, fun hne => absurd hs hne, (hf.valid j).ready⟩
      refine ⟨m, rfl, ?_⟩
      by_cases hj : j = i
      · rw [if_pos hj] at hupd
        subst hj
        rw [hf.func]
        exact hupd
      · rwa [if_neg hj] at hupd
    · have hnone := (hf.valid j).free hs
      refine ⟨if j = i then some func else m, ?_, hf.update
        ⟨fun h => FileState.noConfusion h, fun _ => Option.some_ne_none _,
          fun h => FileState.noConfusion h⟩⟩
      rw [Option.toList_some, List.map_singleton, List.foldlM_cons]
      unfold allowed
      dsimp only
      split_ifs with hj hm
      · rfl
      · rw [hj] at hnone
        exact absurd (hf.func.trans hnone) hm
      · rfl
  | adbFileClose j =>
    obtain ⟨rfl, rfl⟩ := Prod.mk.inj (Option.some.inj h)
    unfold Files.adbFileClose
    split_ifs with hs
    · refine ⟨if j = i then none else m, ?_, hf.update File.valid_zero⟩
      rw [List.foldlM_cons]
      unfold allowed
      dsimp only
      split_ifs <;> rfl
    · exact ⟨m, rfl, hf⟩
  | adbFileTasks ready =>
    obtain ⟨rfl, rfl⟩ := Prod.mk.inj (Option.some.inj h)
    refine ⟨m, foldlM_requests ready fs, fun j => ?_, ?_⟩
    · unfold Files.tasks
      split_ifs with hasks
      · have hopen : (fs j).state = .waitOpen := by
          unfold Files.asks at hasks
          simp_all
        exact ⟨fun h => FileState.noConfusion h,
          fun _ => (hf.valid j).live (by rw [hopen]; exact FileState.noConfusion),
          fun _ => ⟨Nat.succ_pos 7, le_rfl⟩⟩
      · exact hf.valid j
    · unfold Files.tasks
      split_ifs <;> exact hf.func
  | adbFileCallback h' data =>
    obtain ⟨⟨fs₁, es₁⟩, hcall, heq⟩ := Option.map_eq_some_iff.1 h
    obtain ⟨rfl, rfl⟩ := Prod.mk.inj heq
    obtain ⟨j, -, hj⟩ := Option.bind_eq_some_iff.1 hcall
    obtain ⟨⟨f', es'⟩, hf', heq'⟩ := Option.map_eq_some_iff.1 hj
    obtain ⟨rfl, rfl⟩ := Prod.mk.inj heq'
    obtain ⟨g, hg, hcase⟩ := File.callback_cases (hf.valid j) hf'
    have hm : j = i → m = some g := by
      rintro rfl
      exact hf.func.trans hg
    rcases hcase with ⟨hgive, hread, -⟩ | ⟨rfl, es₂, he, hgive⟩
    · refine ⟨m, foldlM_gives hgive hm, ?_⟩
      have hupd := hf.update (j := j) hread.valid
      split_ifs at hupd with hj
      · rwa [hm hj, ← hread.func]
      · exact hupd
    · refine ⟨_, (foldlM_gives hgive hm).trans (foldlM_ends he hm), ?_⟩
      exact hf.update (j := j) File.valid_zero

end Calls

/-! ## One file among others -/

/-- A call of the client's function for the entry `i`. -/
def TableEvent.ofFile (i : FileHandle) : TableEvent φ → Option (FileEvent φ)
  | .did (.data g j l) => if j = i then some (.data g j l) else none
  | .did (.finish g j c) => if j = i then some (.finish g j c) else none
  | .did (.close _) | .opened _ _ | .request _ _ | .closed _ _ | .cleared => none

/-- The data that come over the channel `h`. -/
def FileOp.chunk (h : Handle) : FileOp φ → Option (List Byte)
  | .adbFileCallback h' (some l) => if h' = h then some l else none
  | .adbFileCallback _ none | .adbFileInit | .adbFileRead _ _ _ | .adbFileClose _
  | .adbFileTasks _ => none

/-- A call that leaves the entry `i` to read its file from the channel `h`: the table is not
cleared, the file is not closed, and its channel is not closed or given to another file. -/
def FileOp.Spares (i : FileHandle) (h : Handle) : FileOp φ → Prop
  | .adbFileInit => False
  | .adbFileRead _ _ channel => channel ≠ some h
  | .adbFileClose j => j ≠ i
  | .adbFileTasks _ => True
  | .adbFileCallback h' data => h' = h → ∃ l, data = some l ∧ l ≠ []

/-- What comes over the channel `h` reaches the entry `i`, and goes on to do so whatever is done to
the other entry: a free entry has the channel 0. -/
structure Files.Owns (i : FileHandle) (h : Handle) (fs : Files φ) : Prop where
  handle : (fs i).handle = some h
  first : ∀ j < i, (fs j).handle ≠ some h
  ne_zero : 0 < (i : ℕ) → (h : ℕ) ≠ 0

section Among

variable {i j : FileHandle} {h : Handle} {fs fs' : Files φ} {f : File φ} {g : φ}
  {es : List (TableEvent φ)}

namespace Files

theorem Owns.lookup (ho : fs.Owns i h) : fs.lookup h = some i :=
  lookup_eq_some_iff.2 ⟨ho.handle, ho.first⟩

/-- A change of another entry, which does not get the channel. -/
theorem Owns.update (ho : fs.Owns i h) (hj : j ≠ i) (hf : f.handle ≠ some h) :
    Owns i h (Function.update fs j f) := by
  refine ⟨by rw [Function.update_of_ne hj.symm]; exact ho.handle, fun k hk => ?_, ho.ne_zero⟩
  by_cases hkj : k = j
  · rw [hkj, Function.update_self]
    exact hf
  · rw [Function.update_of_ne hkj]
    exact ho.first k hk

/-- A change of the entry, which keeps the channel. -/
theorem Owns.update_self (ho : fs.Owns i h) (hf : f.handle = some h) :
    Owns i h (Function.update fs i f) := by
  refine ⟨by rw [Function.update_self]; exact hf, fun k hk => ?_, ho.ne_zero⟩
  rw [Function.update_of_ne hk.ne]
  exact ho.first k hk

/-- An entry is freed. -/
theorem Owns.update_zero (ho : fs.Owns i h) (hj : j ≠ i) :
    Owns i h (Function.update fs j .zero) := by
  refine ⟨by rw [Function.update_of_ne hj.symm]; exact ho.handle, fun k hk => ?_, ho.ne_zero⟩
  by_cases hkj : k = j
  · rw [hkj, Function.update_self]
    intro heq
    have hpos : 0 < (i : ℕ) := Nat.zero_lt_of_lt hk
    exact ho.ne_zero hpos (congrArg Fin.val (Option.some.inj heq)).symm
  · rw [Function.update_of_ne hkj]
    exact ho.first k hk

end Files

/-- What the other files make visible does not concern the entry. -/
theorem filterMap_ofFile_of_ne {es₁ es₂ : List (FileEvent φ)} (hj : j ≠ i)
    (hg : File.Gives g j es₁ es₂) (he : es₂ = [] ∨ File.Ends g j es₂) :
    (es₁.map .did).filterMap (TableEvent.ofFile i) = [] := by
  obtain ⟨cs, rfl⟩ := hg
  have hdata : ((cs.map (.data g j)).map .did).filterMap (TableEvent.ofFile i) = [] := by
    rw [List.map_map, List.filterMap_map, List.filterMap_eq_nil_iff]
    exact fun c _ => if_neg hj
  have hend : (es₂.map .did).filterMap (TableEvent.ofFile i) = [] := by
    rcases he with rfl | ⟨h', he⟩ | rfl
    · rfl
    · cases he <;> simp [TableEvent.ofFile, hj]
    · simp [TableEvent.ofFile, hj]
  rw [List.map_append, List.filterMap_append, hdata, hend]
  rfl

theorem filterMap_ofFile_data (g : φ) (i : FileHandle) (cs : List (List Byte)) :
    ((cs.map (.data g i)).map .did).filterMap (TableEvent.ofFile i) = cs.map (.data g i) := by
  induction cs with
  | nil => rfl
  | cons c cs ih =>
    have hc : TableEvent.ofFile i (.did (.data g i c)) = some (.data g i c) := if_pos rfl
    rw [List.map_cons, List.map_cons, List.filterMap_cons_some hc, ih]

/-- A call that brings no data for the entry leaves it as it is. -/
theorem spares_apply (hv : ∀ j, (fs j).Valid) (ho : fs.Owns i h) (hread : File.Reading g (fs i))
    {op : FileOp φ} (hop : op.Spares i h) (hchunk : op.chunk h = none)
    (happly : op.apply fs = some (fs', es)) :
    fs' i = fs i ∧ fs'.Owns i h ∧ es.filterMap (TableEvent.ofFile i) = [] := by
  cases op with
  | adbFileInit => exact hop.elim
  | adbFileRead path func channel =>
    obtain ⟨⟨fs₁, r⟩, hr, heq⟩ := Option.map_eq_some_iff.1 happly
    obtain ⟨rfl, rfl⟩ := Prod.mk.inj heq
    have hevents : (r.toList.map fun k => TableEvent.opened k func).filterMap
        (TableEvent.ofFile i) = [] := by
      cases r <;> rfl
    rcases Files.adbFileRead_cases hr with ⟨rfl, -⟩ | ⟨j, hs, ⟨rfl, -⟩ | ⟨rfl, -⟩⟩
    · exact ⟨rfl, ho, hevents⟩
    · have hj : j ≠ i := fun hj => hread.live (hj ▸ hs)
      exact ⟨Function.update_of_ne hj.symm .., ho.update hj hop, hevents⟩
    · have hj : j ≠ i := fun hj => hread.live (hj ▸ hs)
      exact ⟨Function.update_of_ne hj.symm .., ho.update hj hop, hevents⟩
  | adbFileClose j =>
    obtain ⟨rfl, rfl⟩ := Prod.mk.inj (Option.some.inj happly)
    unfold Files.adbFileClose
    split_ifs
    · exact ⟨Function.update_of_ne (Ne.symm hop) .., ho.update_zero hop, rfl⟩
    · exact ⟨rfl, ho, rfl⟩
  | adbFileTasks ready =>
    obtain ⟨rfl, rfl⟩ := Prod.mk.inj (Option.some.inj happly)
    refine ⟨?_, ⟨(Files.tasks_handle ..).trans ho.handle, fun j hj => ?_, ho.ne_zero⟩, ?_⟩
    · unfold Files.tasks Files.asks
      rcases hread.state with hs | hs | hs <;> simp [hs]
    · rw [Files.tasks_handle]
      exact ho.first j hj
    · rw [List.filterMap_eq_nil_iff]
      intro e he
      obtain ⟨j, -, hj⟩ := List.mem_flatMap.1 he
      split_ifs at hj
      · rw [List.mem_singleton.1 hj]
        rfl
      · exact absurd hj List.not_mem_nil
  | adbFileCallback h' data =>
    have hne : h' ≠ h := by
      intro heq
      obtain ⟨l, rfl, -⟩ := hop heq
      exact Option.some_ne_none _ ((if_pos heq).symm.trans hchunk)
    obtain ⟨⟨fs₁, es₁⟩, hcall, heq⟩ := Option.map_eq_some_iff.1 happly
    obtain ⟨rfl, rfl⟩ := Prod.mk.inj heq
    obtain ⟨j, hlook, hj⟩ := Option.bind_eq_some_iff.1 hcall
    obtain ⟨⟨f', es'⟩, hf', heq'⟩ := Option.map_eq_some_iff.1 hj
    obtain ⟨rfl, rfl⟩ := Prod.mk.inj heq'
    have hh := Files.lookup_handle hlook
    have hji : j ≠ i := by
      rintro rfl
      exact hne (Option.some.inj (hh.symm.trans ho.handle))
    obtain ⟨g', -, hcase⟩ := File.callback_cases (hv j) hf'
    rcases hcase with ⟨hgive, -, hkeep⟩ | ⟨rfl, es₂, he, hgive⟩
    · refine ⟨Function.update_of_ne hji.symm .., ho.update hji ?_,
        filterMap_ofFile_of_ne hji hgive (.inl rfl)⟩
      rw [hkeep, hh]
      exact fun heq => hne (Option.some.inj heq)
    · exact ⟨Function.update_of_ne hji.symm .., ho.update_zero hji,
        filterMap_ofFile_of_ne hji hgive (.inr he)⟩

/-- A call that brings data for the entry. -/
theorem chunk_apply (ho : fs.Owns i h) {l : List Byte} :
    (FileOp.adbFileCallback h (some l)).apply fs = ((fs i).callback i (some l)).map fun r =>
      (Function.update fs i r.1, r.2.map .did) := by
  unfold FileOp.apply Files.callback
  dsimp only
  rw [ho.lookup, Option.bind_some, Option.map_map]
  rfl

theorem eq_of_chunk {op : FileOp φ} {l : List Byte} (hchunk : op.chunk h = some l) :
    op = .adbFileCallback h (some l) := by
  cases op with
  | adbFileCallback h' data =>
    cases data with
    | none => cases hchunk
    | some l' =>
      unfold FileOp.chunk at hchunk
      dsimp only at hchunk
      split_ifs at hchunk with hh
      rw [hh, Option.some.inj hchunk]
  | adbFileInit | adbFileRead _ _ _ | adbFileClose _ | adbFileTasks _ => cases hchunk

theorem valid_apply (hv : ∀ j, (fs j).Valid) {op : FileOp φ} (h : op.apply fs = some (fs', es)) :
    ∀ j, (fs' j).Valid := by
  classical
  intro j
  obtain ⟨m', -, hf⟩ := (Follows.mk (i := j) hv rfl).apply h
  exact hf.valid j

/-- **The entry sees its chunks only**: over calls that spare it, what it holds and what is done for
it is that of `File.feed` on its chunks, as long as the file has not ended. -/
theorem feed_among {ops : List (FileOp φ)} (hr : (fileTable φ).Emits FileOp.events fs ops es fs')
    (hops : ∀ op ∈ ops, op.Spares i h) (hv : ∀ j, (fs j).Valid) (ho : fs.Owns i h)
    (hread : File.Reading g (fs i)) {es' : List (FileEvent φ)}
    (hfeed : File.feed i (fs i) (ops.filterMap (FileOp.chunk h)) = some (f, es'))
    (hlive : f.state ≠ .free) :
    fs' i = f ∧ fs'.Owns i h ∧
      es.filterMap (TableEvent.ofFile i) = (es'.map .did).filterMap (TableEvent.ofFile i) := by
  induction hr generalizing es' with
  | nil fs =>
    obtain ⟨rfl, rfl⟩ := Prod.mk.inj (Option.some.inj hfeed)
    exact ⟨rfl, ho, rfl⟩
  | @cons fs fs₁ fs₂ op ops es₂ hstep hrun ih =>
    obtain ⟨es₁, happly⟩ := hstep
    have hevents : FileOp.events fs op = es₁ := by
      unfold FileOp.events
      rw [happly]
      rfl
    have hv₁ := valid_apply hv happly
    have hops' : ∀ op ∈ ops, op.Spares i h := fun op hop => hops op (List.mem_cons_of_mem _ hop)
    rw [hevents, List.filterMap_append]
    cases hchunk : op.chunk h with
    | none =>
      rw [List.filterMap_cons_none hchunk] at hfeed
      obtain ⟨hsame, ho₁, hnone⟩ :=
        spares_apply hv ho hread (hops op List.mem_cons_self) hchunk happly
      rw [← hsame] at hread hfeed
      obtain ⟨hend, ho₂, hes⟩ := ih hops' hv₁ ho₁ hread hfeed
      exact ⟨hend, ho₂, by rw [hnone, hes, List.nil_append]⟩
    | some l =>
      rw [List.filterMap_cons_some hchunk] at hfeed
      obtain rfl := eq_of_chunk hchunk
      rw [chunk_apply ho] at happly
      obtain ⟨⟨f₁, es₃⟩, hcall, heq⟩ := Option.map_eq_some_iff.1 happly
      obtain ⟨rfl, rfl⟩ := Prod.mk.inj heq
      unfold File.feed at hfeed
      rw [hcall, Option.bind_some] at hfeed
      obtain ⟨⟨f₂, es₄⟩, hrest, heq'⟩ := Option.map_eq_some_iff.1 hfeed
      obtain ⟨rfl, rfl⟩ := Prod.mk.inj heq'
      have hlive₁ : f₁.state ≠ .free := by
        intro hfree
        rcases File.consume_cases hread.func hread.ready hcall with ⟨-, hread₁, -⟩ | ⟨rfl, -⟩
        · exact hread₁.live hfree
        · cases hls : ops.filterMap (FileOp.chunk h) with
          | nil =>
            rw [hls] at hrest
            obtain ⟨rfl, rfl⟩ := Prod.mk.inj (Option.some.inj hrest)
            exact hlive rfl
          | cons l' ls =>
            rw [hls] at hrest
            cases hrest
      obtain ⟨-, hread₁, hh⟩ := File.reading_of_live hread hcall hlive₁
      have hself : Function.update fs i f₁ i = f₁ := Function.update_self ..
      obtain ⟨hend, ho₂, hes⟩ := ih hops' hv₁ (ho.update_self (hh.trans ho.handle))
        (by rw [hself]; exact hread₁) (by rw [hself]; exact hrest)
      exact ⟨hend, ho₂, by rw [hes, List.map_append, List.filterMap_append]⟩

/-- **A file is received among others**: if its entry is the one that its channel leads to, then in
every run of the table that spares it and in which its stream comes over the channel, in whatever
chunks, the client's function is called for it with the bytes of the file in order and then once
with its end, whatever is done meanwhile with the other file. -/
theorem received_among {ops : List (FileOp φ)} {l d : List Byte} {ds : List (List Byte)}
    (hv : ∀ j, (fs j).Valid) (ho : fs.Owns i h) (hf : File.Started g (fs i))
    (hr : (fileTable φ).Emits FileOp.events fs (ops ++ [.adbFileCallback h (some l)]) es fs')
    (hops : ∀ op ∈ ops, op.Spares i h) (hl : l ≠ []) (hds : ∀ d ∈ ds, d.length < 2 ^ 32)
    (hd : d.length < 2 ^ 32)
    (hcut : (ops.filterMap (FileOp.chunk h) ++ [l]).flatten = dataRecords ds ++ record idDone d) :
    ∃ cs : List (List Byte), cs.flatten = ds.flatten ++ d ∧ fs' i = .zero ∧
      es.filterMap (TableEvent.ofFile i) = cs.map (.data g i) ++ [.finish g i 0] := by
  have hls : ∀ c ∈ ops.filterMap (FileOp.chunk h) ++ [l], c ≠ [] := by
    intro c hc
    rcases List.mem_append.1 hc with hc | hc
    · obtain ⟨op, hop, hchunk⟩ := List.mem_filterMap.1 hc
      obtain rfl := eq_of_chunk hchunk
      obtain ⟨l', heq, hne⟩ := hops _ hop rfl
      rwa [Option.some.inj heq]
    · rwa [List.mem_singleton.1 hc]
  obtain ⟨cs, hcs, hfeed⟩ := File.file_received (i := i) hf hds hd hls hcut
  obtain ⟨fs₁, es₁, es₂, hr₁, hr₂, rfl⟩ := hr.of_append
  rw [File.feed_append] at hfeed
  obtain ⟨⟨f₁, es₃⟩, hfeed₁, hrest⟩ := Option.bind_eq_some_iff.1 hfeed
  obtain ⟨⟨f₂, es₄⟩, hfeed₂, heq⟩ := Option.map_eq_some_iff.1 hrest
  obtain ⟨rfl, heq⟩ := Prod.mk.inj heq
  have hlive : f₁.state ≠ .free := by
    rcases File.feed_cases hf.reading hfeed₁ with ⟨-, hread, -⟩ | ⟨rfl, -⟩
    · exact hread.live
    · cases hfeed₂
  obtain ⟨hsame, ho₁, hes₁⟩ := feed_among hr₁ hops hv ho hf.reading hfeed₁ hlive
  cases hr₂ with
  | cons hstep hnil =>
    cases hnil
    obtain ⟨es₅, happly⟩ := hstep
    have hevents : FileOp.events fs₁ (.adbFileCallback h (some l)) = es₅ := by
      unfold FileOp.events
      rw [happly]
      rfl
    rw [chunk_apply ho₁, hsame] at happly
    obtain ⟨⟨f', es₆⟩, hcall, heq'⟩ := Option.map_eq_some_iff.1 happly
    obtain ⟨rfl, rfl⟩ := Prod.mk.inj heq'
    rw [File.feed_cons, hcall, Option.bind_some] at hfeed₂
    obtain ⟨rfl, rfl⟩ := Prod.mk.inj (Option.some.inj hfeed₂)
    refine ⟨cs, hcs, Function.update_self .., ?_⟩
    rw [List.filterMap_append, hes₁, hevents, List.append_nil, ← List.filterMap_append,
      ← List.map_append]
    rw [List.append_nil] at heq
    rw [heq, List.map_append, List.filterMap_append, filterMap_ofFile_data]
    simp [TableEvent.ofFile]

end Among

/-- The second entry has asked for its file. -/
def oneAsked : Files ℕ := Function.update (fun _ => .zero) ⟨1, by decide⟩ File.asked

/-- Another file is opened and loses its channel while the data come. -/
def among : List (FileOp ℕ) :=
  [.adbFileRead [0x2f, 0x62] 9 (some 1),
    .adbFileCallback 3 (some [0x44, 0x41, 0x54, 0x41, 1, 0, 0, 0, 5, 0x44]),
    .adbFileCallback 1 none]

/-- What happens, with the end of the file. -/
def amongEvents : List (TableEvent ℕ) :=
  [.opened ⟨0, by decide⟩ 9, .did (.data 7 ⟨1, by decide⟩ [5]), .did (.finish 9 ⟨0, by decide⟩ 1),
    .did (.finish 7 ⟨1, by decide⟩ 0), .did (.close (some 3))]

theorem received_among_two : ∃ (fs' : Files ℕ) (cs : List (List Byte)),
    (fileTable ℕ).Emits FileOp.events oneAsked
      (among ++ [.adbFileCallback 3 (some [0x4f, 0x4e, 0x45, 0, 0, 0, 0])]) amongEvents fs' ∧
    cs.flatten = [5] ∧ fs' ⟨1, by decide⟩ = .zero ∧
    amongEvents.filterMap (TableEvent.ofFile ⟨1, by decide⟩) =
      cs.map (.data 7 ⟨1, by decide⟩) ++ [.finish 7 ⟨1, by decide⟩ 0] := by
  have hv : ∀ j, (oneAsked j).Valid :=
    (Follows.update (i := ⟨1, by decide⟩) ⟨fun _ => File.valid_zero, rfl⟩
      File.asked_started.reading.valid).valid
  have ho : oneAsked.Owns ⟨1, by decide⟩ 3 := ⟨rfl, by decide, fun _ => by decide⟩
  have hops : ∀ op ∈ among, op.Spares ⟨1, by decide⟩ 3 := by
    have hother : some (1 : Handle) ≠ some 3 := by decide
    exact List.forall_mem_cons.2 ⟨hother, List.forall_mem_cons.2 ⟨fun _ => ⟨_, rfl, by decide⟩,
      List.forall_mem_singleton.2 fun h => absurd h (by decide)⟩⟩
  have hrun : (FileOp.run (among ++ [.adbFileCallback 3 (some [0x4f, 0x4e, 0x45, 0, 0, 0, 0])])
      oneAsked).map Prod.snd = some amongEvents := by decide +kernel
  obtain ⟨fs', h⟩ := emits_of_run _ _ hrun
  obtain ⟨cs, hcs, hzero, hevents⟩ := received_among hv ho File.asked_started h hops (by simp)
    (by decide : ∀ d ∈ [[(5 : Byte)]], d.length < 2 ^ 32)
    (by decide : ([] : List Byte).length < 2 ^ 32) rfl
  exact ⟨fs', cs, h, hcs, hzero, hevents⟩

/-! ## Misdirected data -/

/-- `ADBOpen` gives a channel that is not that of a file. -/
def FileOp.Fresh (fs : Files φ) : FileOp φ → Prop
  | .adbFileRead _ _ channel => ∀ j, (fs j).state ≠ .free → (fs j).handle ≠ channel
  | .adbFileInit | .adbFileClose _ | .adbFileTasks _ | .adbFileCallback _ _ => True

instance (fs : Files φ) : (op : FileOp φ) → Decidable (op.Fresh fs)
  | .adbFileRead _ _ channel =>
    inferInstanceAs (Decidable (∀ j, (fs j).state ≠ .free → (fs j).handle ≠ channel))
  | .adbFileInit | .adbFileClose _ | .adbFileTasks _ | .adbFileCallback _ _ => .isTrue trivial

/-- The channels in the table: a free entry has the channel 0, or none after an `ADBFileRead` that
got none; the files have different ones. -/
structure Files.Tidy (fs : Files φ) : Prop where
  valid : ∀ j, (fs j).Valid
  free : ∀ j, (fs j).state = .free → ∀ h, (fs j).handle = some h → (h : ℕ) = 0
  distinct : ∀ j k, (fs j).state ≠ .free → (fs k).state ≠ .free → (fs j).handle = (fs k).handle →
    j = k

section Misdirected

variable {i j : FileHandle} {h : Handle} {fs fs' : Files φ} {f : File φ}
  {es : List (TableEvent φ)}

namespace Files

theorem tidy_init (fs : Files φ) : fs.init.Tidy where
  valid _ := File.valid_zero
  free _ _ _ hh := (congrArg Fin.val (Option.some.inj hh)).symm
  distinct _ _ hj := absurd rfl hj

theorem Tidy.update (ht : fs.Tidy) (hv : f.Valid)
    (hfree : f.state = .free → ∀ h, f.handle = some h → (h : ℕ) = 0)
    (hlive : f.state ≠ .free → ∀ k ≠ j, (fs k).state ≠ .free → (fs k).handle ≠ f.handle) :
    Tidy (Function.update fs j f) := by
  refine ⟨fun k => ?_, fun k => ?_, fun k k' hk hk' heq => ?_⟩
  · by_cases hkj : k = j
    · rw [hkj, Function.update_self]
      exact hv
    · rw [Function.update_of_ne hkj]
      exact ht.valid k
  · by_cases hkj : k = j
    · rw [hkj, Function.update_self]
      exact hfree
    · rw [Function.update_of_ne hkj]
      exact ht.free k
  · by_cases hkj : k = j <;> by_cases hkj' : k' = j
    · rw [hkj, hkj']
    · rw [hkj, Function.update_self] at hk heq
      rw [Function.update_of_ne hkj'] at hk' heq
      exact absurd heq.symm (hlive hk k' hkj' hk')
    · rw [hkj', Function.update_self] at hk' heq
      rw [Function.update_of_ne hkj] at hk heq
      exact absurd heq (hlive hk' k hkj hk)
    · rw [Function.update_of_ne hkj] at hk heq
      rw [Function.update_of_ne hkj'] at hk' heq
      exact ht.distinct k k' hk hk' heq

theorem Tidy.update_zero (ht : fs.Tidy) (j : FileHandle) : Tidy (Function.update fs j .zero) :=
  ht.update File.valid_zero (fun _ _ hh => (congrArg Fin.val (Option.some.inj hh)).symm)
    fun hs => absurd rfl hs

/-- A call keeps the channels in order. -/
theorem Tidy.apply (ht : fs.Tidy) {op : FileOp φ} (hop : op.Fresh fs)
    (happly : op.apply fs = some (fs', es)) : fs'.Tidy := by
  cases op with
  | adbFileInit =>
    obtain ⟨rfl, -⟩ := Prod.mk.inj (Option.some.inj happly)
    exact tidy_init fs
  | adbFileRead path func channel =>
    obtain ⟨⟨fs₁, r⟩, hr, heq⟩ := Option.map_eq_some_iff.1 happly
    obtain ⟨rfl, -⟩ := Prod.mk.inj heq
    rcases adbFileRead_cases hr with ⟨rfl, -⟩ | ⟨j, hs, ⟨rfl, -, rfl⟩ | ⟨rfl, -⟩⟩
    · exact ht
    · have hv := ht.valid j
      exact ht.update ⟨hv.free, hv.live, hv.ready⟩
        (fun _ h hh => absurd hh (Option.some_ne_none h).symm) fun hlive => absurd hs hlive
    · exact ht.update ⟨fun h => FileState.noConfusion h, fun _ => Option.some_ne_none _,
        fun h => FileState.noConfusion h⟩ (fun h => FileState.noConfusion h)
        fun _ k _ hk => hop k hk
  | adbFileClose j =>
    obtain ⟨rfl, -⟩ := Prod.mk.inj (Option.some.inj happly)
    unfold Files.adbFileClose
    split_ifs
    · exact ht.update_zero j
    · exact ht
  | adbFileTasks ready =>
    have hv := valid_apply ht.valid happly
    obtain ⟨rfl, -⟩ := Prod.mk.inj (Option.some.inj happly)
    refine ⟨hv, fun k hk => ?_, fun k k' hk hk' heq => ?_⟩
    · rw [tasks_handle]
      exact ht.free k ((tasks_free_iff ..).1 hk)
    · rw [tasks_handle, tasks_handle] at heq
      exact ht.distinct k k' (fun hs => hk ((tasks_free_iff ..).2 hs))
        (fun hs => hk' ((tasks_free_iff ..).2 hs)) heq
  | adbFileCallback h' data =>
    obtain ⟨⟨fs₁, es₁⟩, hcall, heq⟩ := Option.map_eq_some_iff.1 happly
    obtain ⟨rfl, -⟩ := Prod.mk.inj heq
    obtain ⟨j, hlook, hj⟩ := Option.bind_eq_some_iff.1 hcall
    obtain ⟨⟨f', es'⟩, hf', heq'⟩ := Option.map_eq_some_iff.1 hj
    obtain ⟨rfl, -⟩ := Prod.mk.inj heq'
    obtain ⟨g, hg, hcase⟩ := File.callback_cases (ht.valid j) hf'
    rcases hcase with ⟨-, hread, hkeep⟩ | ⟨rfl, -⟩
    · refine ht.update hread.valid (fun hs => absurd hs hread.live) fun _ k hk hlive heq => ?_
      have hjlive : (fs j).state ≠ .free := by
        intro hs
        rw [(ht.valid j).free hs] at hg
        cases hg
      exact hk (ht.distinct k j hlive hjlive (heq.trans hkeep))
    · exact ht.update_zero j

end Files

/-- **Misdirected data**: in every state that the table reaches when each file gets a channel of its
own, what comes over the channel of a file leads to a call of a null pointer if and only if the
channel is 0 and there is a free entry before that of the file, which also says 0. -/
theorem callback_eq_none_iff {fs₀ : Files φ} {ops : List (FileOp φ)}
    (hr : ((fileTable φ).restrict fun fs op => op.Fresh fs).Run fs₀.init ops fs)
    (hi : (fs i).state ≠ .free) (hh : (fs i).handle = some h) (data : Option (List Byte)) :
    fs.callback h data = none ↔
      (h : ℕ) = 0 ∧ ∃ j < i, (fs j).state = .free ∧ (fs j).handle ≠ none := by
  have ht : fs.Tidy := hr.invariant (I := Files.Tidy)
    (fun _ _ _ ht ⟨⟨_, happly⟩, hop⟩ => ht.apply hop happly) (Files.tidy_init fs₀)
  -- an entry before that of the file with its channel is free
  have hfree {j : FileHandle} (hj : j < i) (hjh : (fs j).handle = some h) :
      (fs j).state = .free := by
    by_contra hs
    exact hj.ne (ht.distinct j i hs hi (hjh.trans hh.symm))
  unfold Files.callback
  constructor
  · intro hnone
    by_contra hcon
    have hfirst : fs.lookup h = some i := by
      refine Files.lookup_eq_some_iff.2 ⟨hh, fun j hj hjh => hcon ⟨?_, j, hj, hfree hj hjh, ?_⟩⟩
      · exact ht.free j (hfree hj hjh) h hjh
      · rw [hjh]
        exact Option.some_ne_none h
    obtain ⟨r, hr⟩ := File.callback_isSome (i := i) (ht.valid i) hi data
    rw [hfirst, Option.bind_some, hr] at hnone
    cases hnone
  · rintro ⟨h0, j, hj, hs, hjh⟩
    obtain ⟨h', hh'⟩ := Option.ne_none_iff_exists'.1 hjh
    have heq : h' = h := Fin.ext ((ht.free j hs h' hh').trans h0.symm)
    rw [heq] at hh'
    cases hlook : fs.lookup h with
    | none => rfl
    | some k =>
      obtain ⟨hk, hbefore⟩ := Files.lookup_eq_some_iff.1 hlook
      have hkj : k ≤ j := not_lt.1 fun hlt => hbefore j hlt hh'
      rw [Option.bind_some, Option.map_eq_none_iff]
      by_contra hsome
      obtain ⟨⟨f', es'⟩, hf'⟩ := Option.ne_none_iff_exists'.1 hsome
      obtain ⟨g, hg, -⟩ := File.callback_cases (ht.valid k) hf'
      rw [(ht.valid k).free (hfree (hkj.trans_lt hj) hk)] at hg
      cases hg

/-- The first of two files is closed, and the second has the channel 0. -/
theorem callback_eq_none_second :
    ∃ fs : Files ℕ,
      ((fileTable ℕ).restrict fun fs op => op.Fresh fs).Run (Files.init fun _ => .zero)
        [.adbFileRead [0x2f, 0x61] 7 (some ⟨3, by decide⟩),
          .adbFileRead [0x2f, 0x62] 9 (some ⟨0, by decide⟩), .adbFileClose ⟨0, by decide⟩] fs ∧
      (fs ⟨1, by decide⟩).state ≠ .free ∧ (fs ⟨1, by decide⟩).handle = some ⟨0, by decide⟩ ∧
      fs.callback ⟨0, by decide⟩ (some [1]) = none := by
  obtain ⟨fs, hr, hs, hh, h0⟩ : ∃ fs : Files ℕ,
      ((fileTable ℕ).restrict fun fs op => op.Fresh fs).Run (Files.init fun _ => .zero)
        [.adbFileRead [0x2f, 0x61] 7 (some ⟨3, by decide⟩),
          .adbFileRead [0x2f, 0x62] 9 (some ⟨0, by decide⟩), .adbFileClose ⟨0, by decide⟩] fs ∧
      (fs ⟨1, by decide⟩).state ≠ .free ∧ (fs ⟨1, by decide⟩).handle = some ⟨0, by decide⟩ ∧
      (fs ⟨0, by decide⟩).state = .free ∧ (fs ⟨0, by decide⟩).handle ≠ none :=
    ⟨_, Lts.run_cons.2 ⟨_, ⟨⟨_, rfl⟩, by decide⟩,
      Lts.run_cons.2 ⟨_, ⟨⟨_, rfl⟩, by decide⟩, Lts.run_cons.2 ⟨_, ⟨⟨_, rfl⟩, trivial⟩, .nil _⟩⟩⟩,
      by decide, by decide, by decide, by decide⟩
  exact ⟨fs, hr, hs, hh, (callback_eq_none_iff hr hs hh _).2 ⟨rfl, _, by decide, h0⟩⟩

end Misdirected

end TPadFire.Adb
