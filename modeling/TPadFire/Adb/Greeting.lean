import TPadFire.Adb.Delivery

/-!
# The first packet

The layer sends its `ADB_CNXN` and awaits that of the other end. `ADBBufferUnref` asks for the next
packet only once the layer is connected, so that the first packet decides: if it is no `ADB_CNXN`
(an end that asks for authentication sends another one first), it is given up, and none is asked for
after it. The layer does not notice: it waits on, returns no error, and is not reset until the
device is detached.

`Greeting.step` is the rule, as a monitor of what happens to the channels. `client_greeted` says
that every run of calls keeps to it and how the state of the layer follows from it.
-/

namespace TPadFire.Adb

open Firmware (Byte)

/-- What the layer has had from the other end. -/
inductive Greeting
  /-- No packet yet. -/
  | awaited
  /-- An `ADB_CNXN`, before all else. -/
  | greeted
  /-- Another packet. -/
  | refused
  deriving DecidableEq, Repr

namespace Greeting

/-- The rule: nothing is sent for a channel before the other end has sent an `ADB_CNXN`, which is
the first packet that is handled; if another one is, it is the last. -/
def step (g : Greeting) : Event → Option Greeting
  | .cleared => some awaited
  | .received command _ _ =>
    match g with
    | awaited => some (if command = adbCnxn then greeted else refused)
    | greeted => some greeted
    | refused => none
  | .sent _ _ _ _ => if g = greeted then some greeted else none
  | .opened _ | .wrote _ _ | .closing _ => some g

variable {δ : Type*}

/-- The state of the layer at a point of the rule. -/
def Of (a : Layer δ) : Greeting → Prop
  | awaited => a.connState = .error ∨ a.connState = .waitAttach ∨
      (a.connState = .waitConnect ∧ a.bufferRefcount = 1)
  | greeted => (a.connState = .connected ∧ a.bufferRefcount = 1) ∨ a.connState = .error
  | refused => a.connState = .waitConnect ∧ a.bufferRefcount = 0

variable {a a' : Layer δ} {d d' : δ} {g : Greeting} {t : Transfers} {r : ℤ} {attached : Bool}

theorem Of.congr (hg : g.Of a) (hconn : a'.connState = a.connState)
    (href : a'.bufferRefcount = a.bufferRefcount) : g.Of a' := by
  unfold Of at hg ⊢
  rwa [hconn, href]

/-- A layer that is not connected is sent nothing for. -/
theorem Of.greeted_of_connected (hg : g.Of a) (hconn : a.connState = .connected) :
    g = greeted ∧ a.bufferRefcount = 1 := by
  unfold Of at hg
  cases g with
  | awaited => simp [hconn] at hg
  | greeted => exact ⟨rfl, by simpa [hconn] using hg⟩
  | refused => simp [hconn] at hg

theorem of_adbReset (hr : a.adbReset d = some (a', d')) : awaited.Of a' := by
  obtain ⟨d₁, -, hd⟩ := Option.bind_eq_some_iff.1 hr
  obtain ⟨rfl, -⟩ := Prod.mk.inj (Option.some.inj hd)
  exact .inr (.inl rfl)

/-- A packet that is no `ADB_CNXN` is given up before the layer is connected, and no other one is
asked for. -/
theorem of_bufferUnref (hconn : a.connState = .waitConnect) (href : a.bufferRefcount = 1) :
    refused.Of a.bufferUnref := by
  unfold Layer.bufferUnref
  dsimp only
  rw [if_pos (by rw [hconn]; exact ConnState.noConfusion), href]
  exact ⟨hconn, rfl⟩

theorem of_bufferUnref_connected (hconn : a.connState = .connected) (href : a.bufferRefcount = 1) :
    greeted.Of a.bufferUnref := by
  rw [Layer.bufferUnref_eq hconn href]
  exact .inl ⟨hconn, rfl⟩

theorem of_bufferUnref_error (hconn : a.connState = .error) (hne : g ≠ refused) :
    g.Of a.bufferUnref := by
  have h := (Layer.connState_bufferUnref a).trans hconn
  cases g with
  | awaited => exact .inl h
  | greeted => exact .inr h
  | refused => exact absurd rfl hne

/-- A packet is handled and given up. -/
theorem Of.handlePacket (hg : g.Of a)
    (hconn : a.connState = .waitConnect ∨ a.connState = .connected) (hcount : a.bufferRefcount > 0)
    (hr : a.handlePacket d = some (a', d')) (arg0 arg1 : UInt32) :
    ∃ g', g.step (.received a.packet.recvHeader.command arg0 arg1) = some g' ∧
      g'.Of a'.bufferUnref := by
  have href : a'.bufferRefcount = a.bufferRefcount := (Layer.handlePacket_frame hr).2
  cases g with
  | awaited =>
    obtain ⟨hwait, hone⟩ : a.connState = .waitConnect ∧ a.bufferRefcount = 1 := by
      rcases hg with herror | hattach | h
      · rcases hconn with h | h <;> cases herror.symm.trans h
      · rcases hconn with h | h <;> cases hattach.symm.trans h
      · exact h
    by_cases hcommand : a.packet.recvHeader.command = adbCnxn
    · rw [Layer.handlePacket_cnxn hcommand] at hr
      obtain ⟨rfl, -⟩ := Prod.mk.inj (Option.some.inj hr)
      exact ⟨greeted, congrArg some (if_pos hcommand), of_bufferUnref_connected rfl hone⟩
    · exact ⟨refused, congrArg some (if_neg hcommand),
        of_bufferUnref ((Layer.connState_handlePacket_of_ne hcommand hr).trans hwait)
          (href.trans hone)⟩
  | greeted =>
    obtain ⟨hup, hone⟩ : a.connState = .connected ∧ a.bufferRefcount = 1 := by
      rcases hg with h | herror
      · exact h
      · rcases hconn with h | h <;> cases herror.symm.trans h
    have hup' : a'.connState = .connected :=
      (Layer.connState_handlePacket hr).elim (·.trans hup) id
    exact ⟨greeted, rfl, of_bufferUnref_connected hup' (href.trans hone)⟩
  | refused =>
    rw [hg.2] at hcount
    exact absurd hcount (Nat.lt_irrefl 0)

/-- The first part of `ADBTasks`. -/
theorem Of.receiveTasks (hg : g.Of a)
    (hconn : a.connState = .waitConnect ∨ a.connState = .connected)
    (hr : a.receiveTasks t d = some (a', d')) :
    ∃ g', ((a.handled t).toList.map fun p => Event.received p.command p.arg0 p.arg1).foldlM step g =
      some g' ∧ g'.Of a' := by
  unfold Layer.receiveTasks at hr
  unfold Layer.handled
  dsimp only at hr
  by_cases hcount : a.bufferRefcount > 0
  · rw [if_pos hcount] at hr
    cases hst : (a.packet.tasks t).recvStatus with
    | busy =>
      rw [hst] at hr
      obtain ⟨rfl, -⟩ := Prod.mk.inj (Option.some.inj hr)
      rw [if_neg fun h => by cases h.2]
      exact ⟨g, rfl, hg.congr rfl rfl⟩
    | error =>
      rw [hst] at hr
      obtain ⟨rfl, -⟩ := Prod.mk.inj (Option.some.inj hr)
      rw [if_neg fun h => by cases h.2]
      refine ⟨g, rfl, of_bufferUnref_error rfl ?_⟩
      rintro rfl
      rw [hg.2] at hcount
      exact absurd hcount (Nat.lt_irrefl 0)
    | ok =>
      rw [hst] at hr
      obtain ⟨⟨a₁, d₁⟩, hp, heq⟩ := Option.map_eq_some_iff.1 hr
      obtain ⟨rfl, -⟩ := Prod.mk.inj heq
      rw [if_pos ⟨hcount, rfl⟩]
      have hg' : g.Of { a with packet := a.packet.tasks t } := hg.congr rfl rfl
      obtain ⟨g', hstep, hof⟩ := hg'.handlePacket hconn hcount hp
        (a.packet.tasks t).recvHeader.arg0 (a.packet.tasks t).recvHeader.arg1
      refine ⟨g', ?_, hof⟩
      rw [Option.toList_some, List.map_singleton, List.foldlM_cons, hstep]
      rfl
  · rw [if_neg hcount] at hr
    obtain ⟨rfl, -⟩ := Prod.mk.inj (Option.some.inj hr)
    rw [if_neg fun h => hcount h.1]
    exact ⟨g, rfl, hg.congr rfl rfl⟩

/-- What is sent for a channel is sent by a layer that is connected. -/
theorem Of.channelTasks (hg : g.Of a) (hconn : a.connState = .connected) :
    a.stateEvents.foldlM step g = some g ∧ g.Of a.channelTasks := by
  obtain ⟨rfl, hone⟩ := hg.greeted_of_connected hconn
  rcases Layer.channelTasks_given hconn with ⟨hes, heq | heq⟩ | ⟨h, m, -, -, heq, hes⟩
  · rw [hes, heq]
    exact ⟨rfl, .inl ⟨hconn, hone⟩⟩
  · rw [hes, heq]
    exact ⟨rfl, .inr rfl⟩
  · rw [hes, heq]
    exact ⟨rfl, .inl ⟨hconn, hone⟩⟩

/-- The second part of `ADBTasks`. -/
theorem Of.stateTasks (hg : g.Of a) (hr : a.stateTasks attached d = some (r, a', d')) :
    ∃ g', a.stateEvents.foldlM step g = some g' ∧ g'.Of a' := by
  unfold Layer.stateTasks at hr
  cases hs : a.connState with
  | waitAttach =>
    simp only [hs] at hr
    obtain ⟨-, rfl, -⟩ := (Prod.mk.inj (Option.some.inj hr)).imp_right Prod.mk.inj
    have hawaited : g = awaited := by
      cases g with
      | awaited => rfl
      | greeted => rcases hg with ⟨h, -⟩ | h <;> cases hs.symm.trans h
      | refused => cases hs.symm.trans hg.1
    subst hawaited
    refine ⟨awaited, ?_, ?_⟩
    · unfold Layer.stateEvents
      rw [hs]
      rfl
    · split_ifs
      · exact .inr (.inr ⟨rfl, rfl⟩)
      · exact hg
  | waitConnect =>
    simp only [hs] at hr
    obtain ⟨-, rfl, -⟩ := (Prod.mk.inj (Option.some.inj hr)).imp_right Prod.mk.inj
    unfold Layer.stateEvents
    rw [hs]
    exact ⟨g, rfl, hg⟩
  | connected =>
    simp only [hs] at hr
    obtain ⟨-, rfl, -⟩ := (Prod.mk.inj (Option.some.inj hr)).imp_right Prod.mk.inj
    exact ⟨g, hg.channelTasks hs⟩
  | error =>
    simp only [hs] at hr
    obtain ⟨⟨a₁, d₁⟩, hreset, heq⟩ := Option.map_eq_some_iff.1 hr
    obtain ⟨-, rfl, -⟩ := (Prod.mk.inj heq).imp_right Prod.mk.inj
    unfold Layer.stateEvents
    rw [hs]
    exact ⟨awaited, rfl, of_adbReset hreset⟩

/-- `ADBTasks` -/
theorem Of.tasks (hg : g.Of a) (hr : a.tasks attached t d = some (r, a', d')) :
    ∃ g', (a.tasksEvents attached t d).foldlM step g = some g' ∧ g'.Of a' := by
  unfold Layer.tasks at hr
  unfold Layer.tasksEvents
  split_ifs at hr ⊢ with hconn hatt
  · obtain ⟨⟨a₁, d₁⟩, h₁, h₂⟩ := Option.bind_eq_some_iff.1 hr
    obtain ⟨g₁, hg₁, hof₁⟩ := hg.receiveTasks hconn h₁
    obtain ⟨g₂, hg₂, hof₂⟩ := hof₁.stateTasks h₂
    refine ⟨g₂, ?_, hof₂⟩
    rw [List.foldlM_append, hg₁, h₁]
    exact hg₂
  · obtain ⟨⟨a₁, d₁⟩, hreset, heq⟩ := Option.map_eq_some_iff.1 hr
    obtain ⟨-, rfl, -⟩ := (Prod.mk.inj heq).imp_right Prod.mk.inj
    exact ⟨awaited, rfl, of_adbReset hreset⟩
  · exact hg.stateTasks hr

/-- **A call of the layer keeps to the rule.** -/
theorem Of.apply {op : Op δ} (hg : g.Of a) (h : op.apply (a, d) = some (a', d')) :
    ∃ g', (op.events (a, d)).foldlM step g = some g' ∧ g'.Of a' := by
  cases op with
  | adbInit =>
    obtain ⟨rfl, -⟩ := Prod.mk.inj (Option.some.inj h)
    exact ⟨awaited, rfl, .inr (.inl rfl)⟩
  | adbOpen name f =>
    obtain ⟨rfl, -⟩ := Prod.mk.inj (Option.some.inj h)
    unfold Op.events Layer.adbOpen
    dsimp only
    cases hfree : a.firstFree with
    | some h => exact ⟨g, rfl, hg.congr rfl rfl⟩
    | none => exact ⟨g, rfl, hg⟩
  | adbWrite h' data =>
    obtain ⟨rfl, -⟩ := Prod.mk.inj (Option.some.inj h)
    unfold Op.events
    dsimp only
    split_ifs
    · exact ⟨g, rfl, hg.congr rfl rfl⟩
    · exact ⟨g, rfl, hg.congr rfl rfl⟩
  | adbClose h' =>
    obtain ⟨rfl, -⟩ := Prod.mk.inj (Option.some.inj h)
    unfold Op.events Layer.adbClose
    dsimp only
    split_ifs
    · exact ⟨g, rfl, hg⟩
    · exact ⟨g, rfl, hg.congr rfl rfl⟩
  | adbTasks attached t =>
    obtain ⟨⟨r, a₁, d₁⟩, htasks, heq⟩ := Option.map_eq_some_iff.1 h
    obtain ⟨rfl, -⟩ := Prod.mk.inj heq
    exact hg.tasks htasks

theorem Of.connected_iff (hg : g.Of a) :
    a.connected = true ↔ g = greeted ∧ a.connState ≠ .error := by
  unfold Layer.connected
  cases g with
  | awaited => rcases hg with hs | hs | ⟨hs, -⟩ <;> simp [hs]
  | greeted => rcases hg with ⟨hs, -⟩ | hs <;> simp [hs]
  | refused => simp [hg.1]

/-- A layer that has been refused does nothing. -/
theorem tasks_refused (hg : refused.Of a) (hr : a.tasks true t d = some (r, a', d')) :
    r = 0 ∧ d' = d ∧ a'.channels = a.channels ∧ refused.Of a' := by
  obtain ⟨hwait, hzero⟩ := hg
  unfold Layer.tasks Layer.receiveTasks Layer.stateTasks Layer.connected at hr
  simp only [hwait, hzero, gt_iff_lt, Nat.lt_irrefl, reduceCtorEq, or_false, if_true, if_false,
    Option.bind_eq_bind, Option.bind_some, Bool.false_eq_true, Option.some.injEq,
    Prod.mk.injEq] at hr
  obtain ⟨rfl, rfl, rfl⟩ := hr
  exact ⟨rfl, rfl, rfl, rfl, rfl⟩

end Greeting

/-- **The first packet decides**: from when the layer is loaded or initialised on, whatever is
called and whatever arrives, in any order, what happens keeps to the rule; the layer is connected
while it has been greeted and has not failed, and once it has been refused it awaits no packet. -/
theorem client_greeted {δ : Type*} {a a' : Layer δ} {d d' : δ}
    (ha : a.connState = .error ∨ a.connState = .waitAttach) {ops : List (Op δ)} {es : List Event}
    (h : (client δ).Emits (fun s op => op.events s) (a, d) ops es (a', d')) :
    ∃ g, es.foldlM Greeting.step .awaited = some g ∧
      (a'.connected = true ↔ g = .greeted ∧ a'.connState ≠ .error) ∧
      (g = .refused → a'.connState = .waitConnect ∧ a'.bufferRefcount = 0) := by
  obtain ⟨g, hes, hof⟩ := h.accepted (R := fun s g => Greeting.Of s.1 g)
    (fun s op s' g hg hstep => hg.apply hstep) (m := Greeting.awaited) (ha.imp_right .inl)
  exact ⟨g, hes, hof.connected_iff, fun hg => by rwa [hg] at hof⟩

/-- The command of the packet that asks for authentication. The layer does not know it. -/
def adbAuth : UInt32 := 0x48545541

/-- The other end asks for authentication, and then sends an `ADB_CNXN`. -/
def challenge : List (Op Unit) :=
  let header (command : UInt32) (data : List Byte) : Option (List Byte) :=
    some (Message.header ⟨command, 1, 0, data⟩).toBytes
  [.adbInit, .adbTasks true (smooth none), .adbTasks true (smooth none),
    .adbTasks true (smooth (header adbAuth [7])), .adbTasks true (smooth (some [7])),
    .adbTasks true (smooth (header adbCnxn [])), .adbTasks true (smooth (header adbCnxn []))]

theorem client_greeted_challenge :
    ∃ a' d', (client Unit).Emits (fun s op => op.events s) (Layer.loaded, ()) challenge
      [.cleared, .received adbAuth 1 0] (a', d') ∧ a'.connected = false ∧
      a'.connState = .waitConnect ∧ a'.bufferRefcount = 0 := by
  obtain ⟨⟨a', d'⟩, h⟩ : ∃ s', (client Unit).Emits (fun s op => op.events s) (Layer.loaded, ())
      challenge [.cleared, .received adbAuth 1 0] s' :=
    emits_of_performs challenge _ (by decide +kernel)
  obtain ⟨g, hg, hconn, hrefused⟩ := client_greeted (.inl rfl) h
  obtain rfl : Greeting.refused = g := Option.some.inj (.trans (by decide) hg)
  exact ⟨a', d', h, by simpa using hconn, hrefused rfl⟩

end TPadFire.Adb
