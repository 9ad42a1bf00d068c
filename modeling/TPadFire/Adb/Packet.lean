import Mathlib.Data.Nat.Digits.Defs
import TPadFire.Firmware.Callback

/-!
# ADB packets

The packet layer of `adb_packet.c`: one packet at a time is sent and one received, each a header of
24 bytes and then its data, by state machines that `ADBPacketTasks` advances. What the functions of
the USB layer answer in one call of `ADBPacketTasks` is an input (`Transfers`).

A send is given its data as the list of the bytes at the pointer it is passed.
-/

namespace TPadFire.Adb

open Firmware (Byte RecvBuffer adbPacketMaxRecvDataBytes receive)

/-- `ADB_PACKET_HEADER`. -/
structure Header where
  command : UInt32
  arg0 : UInt32
  arg1 : UInt32
  dataLength : UInt32
  dataCheck : UInt32
  magic : UInt32
  deriving DecidableEq

/-- `sizeof(ADB_PACKET_HEADER)`. -/
def headerSize : ℕ := 24

/-- The 32-bit word `k` of a list of bytes, the lowest byte first. -/
def word (l : List Byte) (k : ℕ) : UInt32 :=
  UInt32.ofNat (Nat.ofDigits 256 (((l.drop (4 * k)).take 4).map UInt8.toNat))

/-- The header that was received as the bytes `l`. -/
def Header.ofBytes (l : List Byte) : Header :=
  ⟨word l 0, word l 1, word l 2, word l 3, word l 4, word l 5⟩

/-- `ADB_PACKET_STATE`. -/
inductive PacketState
  | start
  | waitHeader
  | waitData
  | idle
  | error
  deriving DecidableEq, Repr

/-- `ADB_PACKET_STATE_BUSY`. -/
def PacketState.busy : PacketState → Bool
  | start | waitHeader | waitData => true
  | idle | error => false

/-- `ADB_RESULT`. -/
inductive Result
  | ok
  | busy
  | error
  deriving DecidableEq, Repr

/-- The globals of the packet layer. -/
structure Packet where
  sendHeader : Header
  recvHeader : Header
  sendState : PacketState
  recvState : PacketState
  sendData : List Byte
  recvData : RecvBuffer

/-- What the USB layer answers in one call of `ADBPacketTasks`. -/
structure Transfers where
  /-- `USBHostAndroidWrite` starts a transfer. -/
  write : Bool
  /-- `USBHostAndroidTxIsComplete`: the transfer is over, and whether it succeeded. -/
  txComplete : Option Bool
  /-- `USBHostAndroidRead` starts a transfer. -/
  read : Bool
  /-- `USBHostAndroidRxIsComplete`: the transfer is over, whether it succeeded, and the bytes. -/
  rxComplete : Option (Bool × List Byte)

namespace Packet

/-- `ADBChecksum`. -/
def adbChecksum (data : List Byte) : UInt32 := data.foldl (fun sum b => sum + b.toUInt32) 0

/-- `ADBPacketSendTasks`. -/
def sendTasks (t : Transfers) (p : Packet) : Packet :=
  match p.sendState with
  | .start => { p with sendState := if t.write then .waitHeader else .error }
  | .waitHeader =>
    match t.txComplete with
    | none => p
    | some false => { p with sendState := .error }
    | some true =>
      if p.sendHeader.dataLength = 0 then { p with sendState := .idle }
      else { p with sendState := if t.write then .waitData else .error }
  | .waitData =>
    match t.txComplete with
    | none => p
    | some ok => { p with sendState := if ok then .idle else .error }
  | .idle => p
  | .error => p

/-- `ADBPacketRecvTasks`. A header of another size than 24 bytes is not looked at again. -/
def recvTasks (t : Transfers) (p : Packet) : Packet :=
  match p.recvState with
  | .start => { p with recvState := if t.read then .waitHeader else .error }
  | .waitHeader =>
    match t.rxComplete with
    | none => p
    | some (ok, l) =>
      let p := { p with recvHeader := Header.ofBytes l }
      if !ok then { p with recvState := .error }
      else if l.length ≠ headerSize ∨ p.recvHeader.command ≠ (~~~p.recvHeader.magic) ∨
          p.recvHeader.dataLength.toNat > adbPacketMaxRecvDataBytes then
        { p with recvState := .error }
      else if p.recvHeader.dataLength = (0 : UInt32) then { p with recvState := .idle }
      else { p with recvState := if t.read then .waitData else .error }
  | .waitData =>
    match t.rxComplete with
    | none => p
    | some (ok, l) =>
      let p := { p with recvData := receive l p.recvData }
      if !ok ∨ l.length ≠ p.recvHeader.dataLength.toNat then { p with recvState := .error }
      else if adbChecksum (p.recvData.contents p.recvHeader.dataLength.toNat) ≠
          p.recvHeader.dataCheck then
        { p with recvState := .error }
      else { p with recvState := .idle }
  | .idle => p
  | .error => p

/-- `ADBPacketTasks`. -/
def tasks (t : Transfers) (p : Packet) : Packet := (p.sendTasks t).recvTasks t

/-- `ADBPacketSend`. -/
def send (cmd arg0 arg1 : UInt32) (data : List Byte) (p : Packet) : Packet :=
  { p with
    sendHeader := ⟨cmd, arg0, arg1, .ofNat data.length, adbChecksum data, ~~~cmd⟩
    sendData := data
    sendState := .start }

/-- `ADBPacketSendStatus`. -/
def sendStatus (p : Packet) : Result :=
  if p.sendState.busy then .busy else if p.sendState = .idle then .ok else .error

/-- `ADBPacketRecv`. -/
def recv (p : Packet) : Packet := { p with recvState := .start }

/-- `ADBPacketRecvStatus`, without the fields of the packet. -/
def recvStatus (p : Packet) : Result :=
  if p.recvState.busy then .busy else if p.recvState = .error then .error else .ok

/-- `ADBPacketReset`. -/
def reset (p : Packet) : Packet := { p with sendState := .idle, recvState := .idle }

end Packet

end TPadFire.Adb
