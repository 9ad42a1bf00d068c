import TPadFire.Host.Split

/-!
# The host's byte stream cut into payloads

The host writes its messages to a stream of bytes, which arrives as payloads of the ADB channel; the
firmware takes each payload to be a message. A `Segment` is a stretch of the stream in which some
messages arrive merged into one payload, or one message arrives as several. `stream_iff` says which
segments are decoded as their messages are, in whatever stream they occur: those of one payload that
is mergeable, and no others.
-/

namespace TPadFire.Host

open Firmware

/-- A stretch of the stream: messages of the host and the payloads that their bytes arrive in.
Either the messages are in one payload, or there is one message. -/
structure Segment where
  messages : List (List Byte)
  payloads : List (List Byte)
  emitted : ∀ m ∈ messages, Emitted m
  nonempty : ∀ p ∈ payloads, p ≠ []
  fits : ∀ p ∈ payloads, p.length ≤ adbPacketMaxRecvDataBytes
  bytes : payloads.flatten = messages.flatten
  simple : payloads.length = 1 ∨ messages.length = 1

namespace Segment

variable {g : Segment}

theorem form (g : Segment) : ∀ m ∈ g.messages, Form m := fun m hm => emitted_iff.1 (g.emitted m hm)

theorem payloads_eq (h : g.payloads.length = 1) : g.payloads = [g.messages.flatten] := by
  obtain ⟨p, hp⟩ := List.length_eq_one_iff.1 h
  have hbytes := g.bytes
  rw [hp, List.flatten_singleton] at hbytes
  rw [hp, hbytes]

theorem messages_ne_nil (h : g.payloads.length = 1) : g.messages ≠ [] := by
  intro hnil
  have hp := g.payloads_eq h
  rw [hnil, List.flatten_nil] at hp
  exact g.nonempty [] (by rw [hp]; exact List.mem_cons_self) rfl

/-- A segment of several payloads is one message cut. -/
theorem separated (h : g.payloads.length ≠ 1) :
    ∃ m, g.messages = [m] ∧ Separated g.payloads m := by
  obtain ⟨m, hm⟩ := List.length_eq_one_iff.1 (g.simple.resolve_left h)
  have hform : Form m := g.form m (by rw [hm]; exact List.mem_cons_self)
  have hflat : g.payloads.flatten = m := by rw [g.bytes, hm, List.flatten_singleton]
  have hpos : g.payloads.length ≠ 0 := fun h0 => by
    rw [List.length_eq_zero_iff.1 h0, List.flatten_nil] at hflat
    exact hform.ne_nil hflat.symm
  exact ⟨m, hm, not_alike_split hform ⟨hflat, g.nonempty, by omega⟩⟩

/-- A segment that is, in every place, decoded as its messages are. -/
theorem mergeable_of_alike (h : ∀ d rx, (feed g.payloads ⟨d, rx⟩).Rel Device.Alike
    (feed g.messages ⟨d, rx⟩)) : g.payloads.length = 1 ∧ Mergeable g.messages := by
  by_cases hone : g.payloads.length = 1
  · refine ⟨hone, mergeable_of_faithful (g.messages_ne_nil hone) g.form fun p _ rx d₁ hcall => ?_⟩
    have hrel := h (probe p) rx
    rw [g.payloads_eq hone, feed_singleton, hcall] at hrel
    exact hrel.of_returned
  · obtain ⟨m, hm, d, rx, hnot⟩ := g.separated hone
    exact absurd (hm ▸ h d rx) hnot

end Segment

/-- **Which parts of the stream are decoded as the messages are.** Take any segments. Whatever
stream they make, in any order and number, and whatever the device state and the receive buffer, its
payloads leave a device that looks as if each message had been its own payload, exactly when each of
the segments is one payload that is mergeable. -/
theorem stream_iff (G : Set Segment) :
    (∀ gs : List Segment, (∀ g ∈ gs, g ∈ G) → ∀ d rx rx',
      (feed (gs.flatMap Segment.payloads) ⟨d, rx⟩).Rel Device.Alike
        (feed (gs.flatMap Segment.messages) ⟨d, rx'⟩)) ↔
    ∀ g ∈ G, g.payloads.length = 1 ∧ Mergeable g.messages := by
  constructor
  · intro h g hg
    refine g.mergeable_of_alike fun d rx => ?_
    have hrel := h [g] (by simpa using hg) d rx rx
    rwa [List.flatMap_singleton, List.flatMap_singleton] at hrel
  · intro h gs hgs d rx rx'
    have hpayloads : gs.flatMap Segment.payloads = (gs.map Segment.messages).map List.flatten := by
      rw [List.map_map, List.map_eq_flatMap]
      exact List.flatMap_congr fun g hg => g.payloads_eq (h g (hgs g hg)).1
    have hform : ∀ ms ∈ gs.map Segment.messages, ∀ m ∈ ms, Form m :=
      List.forall_mem_map.2 fun g _ => g.form
    have hmergeable : ∀ ms ∈ gs.map Segment.messages, Mergeable ms :=
      List.forall_mem_map.2 fun g hg => (h g (hgs g hg)).2
    rw [hpayloads, List.flatMap_def]
    exact (feed_mergeable hmergeable hform (.refl d)).mono fun _ _ => Device.Near.alike

/-- Two keep-alive messages in one payload. -/
def keepAlives : Segment where
  messages := [[commandAlive], [commandAlive]]
  payloads := [[commandAlive, commandAlive]]
  emitted m hm := by
    obtain rfl : m = [commandAlive] := by simpa using hm
    exact emitted_iff.2 .alive
  nonempty := by decide
  fits := by decide
  bytes := rfl
  simple := .inl rfl

/-- Four keep-alive messages in two payloads. -/
theorem stream_iff_keepAlive :
    (feed [[commandAlive, commandAlive], [commandAlive, commandAlive]] bootBoard).Rel Device.Alike
      (feed [[commandAlive], [commandAlive], [commandAlive], [commandAlive]] bootBoard) := by
  refine (stream_iff {keepAlives}).2 ?_ [keepAlives, keepAlives] (by simp) boot (fun _ => 0)
    (fun _ => 0)
  rintro g rfl
  exact ⟨rfl, .alive (k := 2) (by omega) (by omega)⟩

/-- A magnitude message of full level, cut in two: after the first byte the level is taken from what
the receive buffer held, and the second byte is no message. -/
theorem stream_split :
    Emitted [0x0a, 0xff] ∧ [[0x0a], [0xff]].flatten = [([0x0a, 0xff] : List Byte)].flatten ∧
      ¬ (feed [[0x0a], [0xff]] bootBoard).Rel Device.Alike (feed [[0x0a, 0xff]] bootBoard) := by
  refine ⟨emitted_iff.2 (.mag 0xff), rfl, fun h => ?_⟩
  have hignored (rx : RecvBuffer) (d : Device) : feed [[0xff]] ⟨d, rx⟩ = .returned d := by
    rw [feed_singleton]
    refine adbCallback_ignored (by simp) ?_
    rw [receive_zero]
    decide
  have hsplit : feed [[0x0a], [0xff]] bootBoard = _ :=
    (congrArg (Outcome.bind · _) (callback_magByte bootBoard.rx boot)).trans (hignored _ _)
  have hwhole : feed [[0x0a, 0xff]] bootBoard = _ :=
    (feed_singleton _ _ _).trans (callback_mag 0xff [] (Nat.zero_le 3))
  rw [hsplit, hwhole] at h
  cases h with
  | returned h =>
    have hcount : dutyCount (boot.pr2 + 1) (levelDuty 0) =
        dutyCount (boot.pr2 + 1) (levelDuty 0xff) := h.oc3rs
    rw [dutyCount_level, dutyCount_level, boot_pr2] at hcount
    exact absurd hcount (by decide)

end TPadFire.Host
