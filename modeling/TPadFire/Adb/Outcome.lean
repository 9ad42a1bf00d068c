import TPadFire.Adb.Connection
import TPadFire.Adb.Delivery

/-!
# How a call of the tasks ends

Whether `ADBTasks` returns -1, and whether the layer is connected after it, is decided by the state
before the call and what the USB layer answers in it: the packet that arrives, or the transfer that
fails (`Fails`, `Connects`, `connected_tasks`). So is whether the device is still attached when
`ConnectionTasks` has ended (`Connection.Stays`, `stays_iff`), and which callbacks have been called
(`Connection.notices`, `connectionTasks_notices`).
-/

namespace TPadFire.Adb

variable {δ : Type*}

namespace Layer

/-- The packet that arrives in a call of `ADBTasks` is an `ADB_CNXN`. -/
def Greets (t : Transfers) (a : Layer δ) : Prop :=
  (a.connState = .waitConnect ∨ a.connState = .connected) ∧ a.bufferRefcount > 0 ∧
    (a.packet.tasks t).recvStatus = .ok ∧ (a.packet.tasks t).recvHeader.command = adbCnxn

/-- A call of `ADBTasks` finds the layer in its error state, or a packet fails to arrive. -/
def Fails (t : Transfers) (a : Layer δ) : Prop :=
  a.connState = .error ∨
    ((a.connState = .waitConnect ∨ a.connState = .connected) ∧ a.bufferRefcount > 0 ∧
      (a.packet.tasks t).recvStatus = .error)

/-- In a call of `ADBTasks` the layer is connected, or becomes so, and no packet has failed to be
sent. -/
def Connects (t : Transfers) (a : Layer δ) : Prop :=
  (a.connState = .connected ∨ a.Greets t) ∧ (a.packet.tasks t).sendStatus ≠ .error

variable {a a' : Layer δ} {d d' : δ} {t : Transfers} {r : ℤ}

theorem connected_iff : a.connected = true ↔ a.connState = .connected := by
  unfold connected
  cases a.connState <;> simp

theorem sendStatus_bufferUnref (a : Layer δ) :
    a.bufferUnref.packet.sendStatus = a.packet.sendStatus := by
  unfold bufferUnref
  dsimp only
  split_ifs <;> rfl

theorem not_fails (hne : a.connState ≠ .error)
    (h : a.bufferRefcount > 0 → (a.packet.tasks t).recvStatus ≠ .error) : ¬ a.Fails t := by
  rintro (herr | ⟨-, href, hstatus⟩)
  · exact hne herr
  · exact h href hstatus

/-- The first part of `ADBTasks` fails, or connects the layer, or leaves the state of the connection
alone. -/
theorem receiveTasks_connState (hs : a.connState = .waitConnect ∨ a.connState = .connected)
    (hr : a.receiveTasks t d = some (a', d')) :
    a'.packet.sendStatus = (a.packet.tasks t).sendStatus ∧
      ((a.Fails t ∧ a'.connState = .error) ∨
        (¬ a.Fails t ∧ a.Greets t ∧ a'.connState = .connected) ∨
        (¬ a.Fails t ∧ ¬ a.Greets t ∧ a'.connState = a.connState)) := by
  have hne : a.connState ≠ .error := by
    rcases hs with hs | hs <;> rw [hs] <;> exact ConnState.noConfusion
  unfold receiveTasks at hr
  dsimp only at hr
  split_ifs at hr with href
  · cases hstatus : (a.packet.tasks t).recvStatus with
    | busy =>
      rw [hstatus] at hr
      obtain ⟨rfl, -⟩ := Prod.mk.inj (Option.some.inj hr)
      refine ⟨rfl, .inr (.inr ⟨?_, fun h => ?_, rfl⟩)⟩
      · exact not_fails hne fun _ => hstatus ▸ Result.noConfusion
      · cases hstatus.symm.trans h.2.2.1
    | error =>
      rw [hstatus] at hr
      obtain ⟨rfl, -⟩ := Prod.mk.inj (Option.some.inj hr)
      refine ⟨?_, .inl ⟨.inr ⟨hs, href, hstatus⟩, ?_⟩⟩
      · rw [sendStatus_bufferUnref]
      · rw [connState_bufferUnref]
    | ok =>
      rw [hstatus] at hr
      obtain ⟨⟨a₁, d₁⟩, hhandle, heq⟩ := Option.map_eq_some_iff.1 hr
      obtain ⟨rfl, -⟩ := Prod.mk.inj heq
      have hfine : ¬ a.Fails t := not_fails hne fun _ => hstatus ▸ Result.noConfusion
      rw [sendStatus_bufferUnref, connState_bufferUnref, (handlePacket_frame hhandle).1]
      refine ⟨rfl, .inr ?_⟩
      by_cases hcommand : (a.packet.tasks t).recvHeader.command = adbCnxn
      · rw [handlePacket_cnxn hcommand] at hhandle
        obtain ⟨rfl, -⟩ := Prod.mk.inj (Option.some.inj hhandle)
        exact .inl ⟨hfine, ⟨hs, href, hstatus, hcommand⟩, rfl⟩
      · have hconn := connState_handlePacket_of_ne (a := { a with packet := a.packet.tasks t })
          hcommand hhandle
        exact .inr ⟨hfine, fun h => hcommand h.2.2.2, hconn⟩
  · obtain ⟨rfl, -⟩ := Prod.mk.inj (Option.some.inj hr)
    exact ⟨rfl, .inr (.inr ⟨not_fails hne fun h => absurd h href, fun h => href h.2.1, rfl⟩)⟩

/-- The second part of `ADBTasks` returns -1 in the error state, and the layer stays connected
unless a packet has failed to be sent. -/
theorem connected_stateTasks {attached : Bool} (hr : a.stateTasks attached d = some (r, a', d')) :
    (r = -1 ↔ a.connState = .error) ∧
      (a'.connected = true ↔ a.connState = .connected ∧ a.packet.sendStatus ≠ .error) := by
  have hne (b : Bool) : (if b then 1 else 0 : ℤ) ≠ -1 := by cases b <;> decide
  unfold stateTasks at hr
  cases hconn : a.connState with
  | waitAttach =>
    simp only [hconn] at hr
    obtain ⟨rfl, rfl, -⟩ := (Prod.mk.inj (Option.some.inj hr)).imp_right Prod.mk.inj
    refine ⟨iff_of_false (hne _) ConnState.noConfusion, ?_⟩
    rw [connected_iff]
    refine iff_of_false (fun h => ?_) fun h => ConnState.noConfusion h.1
    split_ifs at h
    cases hconn.symm.trans h
  | waitConnect =>
    simp only [hconn] at hr
    obtain ⟨rfl, rfl, -⟩ := (Prod.mk.inj (Option.some.inj hr)).imp_right Prod.mk.inj
    refine ⟨iff_of_false (hne _) ConnState.noConfusion, ?_⟩
    rw [connected_iff, hconn]
    exact iff_of_false ConnState.noConfusion fun h => ConnState.noConfusion h.1
  | connected =>
    simp only [hconn] at hr
    obtain ⟨rfl, rfl, -⟩ := (Prod.mk.inj (Option.some.inj hr)).imp_right Prod.mk.inj
    refine ⟨iff_of_false (hne _) ConnState.noConfusion, ?_⟩
    rw [connected_iff]
    rcases a.channelTasks_cases with ⟨hs, heq⟩ | ⟨hs, heq⟩ | ⟨hs, -, heq⟩ | ⟨hs, h, m, -, -, heq⟩
    · rw [heq, hs]
      exact iff_of_true hconn ⟨rfl, Result.noConfusion⟩
    · rw [heq, hs]
      exact iff_of_false ConnState.noConfusion fun h => h.2 rfl
    · rw [heq, hs]
      exact iff_of_true hconn ⟨rfl, Result.noConfusion⟩
    · rw [heq, hs]
      exact iff_of_true hconn ⟨rfl, Result.noConfusion⟩
  | error =>
    simp only [hconn] at hr
    obtain ⟨⟨a₁, d₁⟩, hreset, heq⟩ := Option.map_eq_some_iff.1 hr
    obtain ⟨rfl, rfl, -⟩ := (Prod.mk.inj heq).imp_right Prod.mk.inj
    obtain ⟨d₂, -, heq'⟩ := Option.bind_eq_some_iff.1 hreset
    obtain ⟨rfl, -⟩ := Prod.mk.inj (Option.some.inj heq')
    refine ⟨iff_of_true rfl rfl, ?_⟩
    rw [connected_iff]
    exact iff_of_false ConnState.noConfusion fun h => ConnState.noConfusion h.1

/-- **How a call of `ADBTasks` ends**, with a device attached. -/
theorem connected_tasks (hr : a.tasks true t d = some (r, a', d')) :
    (r = -1 ↔ a.Fails t) ∧ (¬ a.Fails t → (a'.connected = true ↔ a.Connects t)) := by
  unfold tasks at hr
  rw [if_pos rfl] at hr
  split_ifs at hr with hs
  · obtain ⟨⟨a₁, d₁⟩, h₁, h₂⟩ := Option.bind_eq_some_iff.1 hr
    obtain ⟨hfail, hconn⟩ := connected_stateTasks h₂
    obtain ⟨hsend, hcase⟩ := receiveTasks_connState hs h₁
    dsimp only at hfail hconn
    rw [hfail, hconn, hsend]
    unfold Connects
    rcases hcase with ⟨hf, heq⟩ | ⟨hf, hg, heq⟩ | ⟨hf, hg, heq⟩
    · exact ⟨iff_of_true heq hf, fun h => absurd hf h⟩
    · rw [heq]
      exact ⟨iff_of_false ConnState.noConfusion hf,
        fun _ => and_congr_left fun _ => iff_of_true rfl (.inr hg)⟩
    · rw [heq]
      refine ⟨iff_of_false (fun h => hf (.inl h)) hf, fun _ => and_congr_left fun _ => ?_⟩
      exact ⟨.inl, fun h => h.resolve_right hg⟩
  · obtain ⟨hfail, hconn⟩ := connected_stateTasks hr
    have hne : a.connState ≠ .connected := fun h => hs (.inr h)
    refine ⟨hfail.trans ⟨.inl, fun h => h.resolve_right fun h => hs h.1⟩, fun _ => ?_⟩
    rw [hconn]
    exact iff_of_false (fun h => hne h.1) fun h => h.1.elim hne fun h => hs h.1

end Layer

namespace Connection

/-- The device stays attached in a call of `ConnectionTasks`: it is not detached, and neither
`ADBTasks` nor the tasks of the accessory interface fail. -/
def Stays (usb : UsbEvent) (t : Transfers) (fails : Bool) (c : Connection δ) : Prop :=
  usb ≠ .detach ∧ ¬ c.adb.Fails t ∧ fails = false

/-- The calls of the callbacks in a call of `ConnectionTasks`. -/
def notices (usb : UsbEvent) (t : Transfers) (c : Connection δ) : List Notice :=
  if usbHostTasks usb c.link = .running ∧ c.adbState ≠ .disconnected then c.adb.notices true t
  else []

variable {c c' : Connection δ} {d d' : δ} {usb : UsbEvent} {t : Transfers} {fails : Bool}

/-- **Whether the device stays attached**, and what the tasks have then done. -/
theorem stays_iff (hlink : c.link = .running) (hstate : c.adbState ≠ .disconnected)
    (hr : c.connectionTasks usb t fails d = some (c', d')) :
    (c'.link = .running ↔ c.Stays usb t fails) ∧
      (c.Stays usb t fails → c'.adbState ≠ .disconnected ∧
        c'.adb.taken = c.adb.taken \ {h | c.adb.Closes t h} ∧
        (c'.adb.connected = true ↔ c.adb.Connects t)) := by
  obtain ⟨⟨c₁, d₁⟩, hadb, heq⟩ := Option.map_eq_some_iff.1 hr
  obtain ⟨rfl, rfl⟩ := Prod.mk.inj heq
  dsimp only
  rw [adb_connAccessoryTasks, adbState_connAccessoryTasks]
  rcases connADBTasks_cases hadb with ⟨hl, rfl, -⟩ | ⟨-, hs, -⟩ | ⟨hl, -, hs', r, htasks, hres⟩
  · have hdetach : usb = .detach := by_contra fun h => hl ((usbHostTasks_running_iff hlink).2 h)
    refine ⟨iff_of_false (fun h => ?_) fun h => h.1 hdetach, fun h => absurd hdetach h.1⟩
    rcases connAccessoryTasks_cases fails
      { c with link := usbHostTasks usb c.link, adbState := .disconnected } with heq | ⟨hrun, -⟩
    · rw [heq] at h
      exact hl h
    · exact hl hrun
  · exact absurd hs hstate
  · have husb : usb ≠ .detach := (usbHostTasks_running_iff hlink).1 hl
    obtain ⟨hfail, hconn⟩ := Layer.connected_tasks htasks
    refine ⟨?_, fun h => ⟨hs', ?_, hconn h.2.1⟩⟩
    · unfold connAccessoryTasks
      by_cases hf : c.adb.Fails t
      · rw [if_pos (hfail.2 hf)] at hres
        refine iff_of_false (fun h => ?_) fun h => h.2.1 hf
        split_ifs at h
        · cases h
        · cases hres.symm.trans h
      · rw [if_neg fun h => hf (hfail.1 h)] at hres
        rw [attached_iff.2 hres]
        cases fails with
        | false => exact iff_of_true hres ⟨husb, hf, rfl⟩
        | true => exact iff_of_false Link.noConfusion fun h => Bool.noConfusion h.2.2
    · exact ((Layer.taken_tasks htasks).resolve_left fun hr => h.2.1 (hfail.1 hr.1)).2

/-- **A call of `ConnectionTasks`** calls the callbacks, and keeps of the entries of the channel
table what every change of one keeps. -/
theorem connectionTasks_notices {p : Channel δ → Prop} (hp : ∀ c c', Change c c' → p c → p c')
    (ha : ∀ h, p (c.adb.channels h)) (hr : c.connectionTasks usb t fails d = some (c', d')) :
    c.adb.notifyAll (c.notices usb t) d = some d' ∧ ∀ h, p (c'.adb.channels h) := by
  obtain ⟨⟨c₁, d₁⟩, hadb, heq⟩ := Option.map_eq_some_iff.1 hr
  obtain ⟨rfl, rfl⟩ := Prod.mk.inj heq
  dsimp only
  rw [adb_connAccessoryTasks]
  unfold notices
  rcases connADBTasks_cases hadb with ⟨hl, rfl, rfl⟩ | ⟨-, hs, rfl, rfl⟩ |
    ⟨hl, hs, -, r, htasks, -⟩
  · rw [if_neg fun h => hl h.1]
    exact ⟨rfl, ha⟩
  · rw [if_neg fun h => h.2 hs]
    exact ⟨rfl, fun h => hp _ _ .cleared (ha h)⟩
  · rw [if_pos ⟨hl, hs⟩]
    refine ⟨?_, Layer.entries_tasks hp ha htasks⟩
    obtain ⟨r', a, heq⟩ := Layer.tasks_eq true t c.adb
    rw [heq] at htasks
    obtain ⟨d₂, hnotify, hsame⟩ := Option.map_eq_some_iff.1 htasks
    obtain ⟨-, -, rfl⟩ : _ ∧ _ ∧ _ := by simpa only [Prod.mk.injEq] using hsame
    exact hnotify

end Connection

end TPadFire.Adb
