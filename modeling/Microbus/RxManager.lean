import Microbus.Types

/-! `rxManager.c`: the store of received packets and the ring of pointers into it. -/
namespace Microbus

/-- `tRxPacketManager`. `endIndex` is the field `end`. -/
structure RxPacketManager where
  maxRxPacketEntries : Nat
  rxPacketEntries : Nat → PacketEntry
  rxPacketQueue : Nat → Option Nat
  start : Nat
  endIndex : Nat
  rxBufferLevel : Nat

/-- `INCR_AND_WRAP` -/
def incrAndWrap (val incr max : Nat) : Nat := if val + incr ≥ max then incr + val - max else val + incr

/-- `DECR_AND_WRAP` -/
def decrAndWrap (val decr max : Nat) : Nat := if val < decr then max + val - decr else val - decr

namespace RxPacketManager

/-- `CIRCULAR_BUFFER_FULL` -/
def isFull (rpm : RxPacketManager) : Prop :=
  rpm.start = incrAndWrap rpm.endIndex 1 rpm.maxRxPacketEntries

/-- `CIRCULAR_BUFFER_EMPTY` -/
def isEmpty (rpm : RxPacketManager) : Prop := rpm.start = rpm.endIndex

instance (rpm : RxPacketManager) : Decidable rpm.isFull := by unfold isFull; infer_instance
instance (rpm : RxPacketManager) : Decidable rpm.isEmpty := by unfold isEmpty; infer_instance

/-- `CIRCULAR_BUFFER_LENGTH` -/
def length (rpm : RxPacketManager) : Nat := decrAndWrap rpm.endIndex rpm.start rpm.maxRxPacketEntries

def setInUse (rpm : RxPacketManager) (i : Nat) (inUse : Bool) : RxPacketManager :=
  { rpm with
    rxPacketEntries := Function.update rpm.rxPacketEntries i { rpm.rxPacketEntries i with inUse } }

def receive (rpm : RxPacketManager) (i : Nat) (packet : Packet) : RxPacketManager :=
  { rpm with
    rxPacketEntries := Function.update rpm.rxPacketEntries i { rpm.rxPacketEntries i with packet } }

/-- `CIRCULAR_BUFFER_POP` -/
def pop (rpm : RxPacketManager) (s : Site) : Except Fault RxPacketManager :=
  if rpm.isEmpty then .error (.assertFailed s)
  else .ok { rpm with start := incrAndWrap rpm.start 1 rpm.maxRxPacketEntries }

end RxPacketManager

def findFreeRxPacket (rpm : RxPacketManager) : Option (Nat × RxPacketManager) :=
  if rpm.isFull then none
  else
    match (List.range rpm.maxRxPacketEntries).find? (fun i => !(rpm.rxPacketEntries i).inUse) with
    | some i => some (i, rpm.setInUse i true)
    | none => none

def addRxDataPacket (rpm : RxPacketManager) (packetEntry : Nat) : Except Fault RxPacketManager :=
  if rpm.isFull then .error (.assertFailed .addRxDataPacket)
  else
    let rpm :=
      { rpm with
        rxPacketQueue := Function.update rpm.rxPacketQueue rpm.endIndex (some packetEntry)
        endIndex := incrAndWrap rpm.endIndex 1 rpm.maxRxPacketEntries }
    .ok { rpm with rxBufferLevel := max rpm.rxBufferLevel rpm.length }

/-- The loop of `rxManagerRemoveAllPackets` from index `i`, which the body wraps after the
exit test. -/
def removeAllPacketsLoop (nodeId : TNodeIndex) : Nat → Nat → RxPacketManager → Except Fault RxPacketManager
  | 0, _, _ => .error (.outOfFuel .rxManagerRemoveAllPackets)
  | fuel + 1, i, rpm =>
      if i ≠ rpm.endIndex then
        let i := if i ≥ rpm.maxRxPacketEntries then 0 else i
        match rpm.rxPacketQueue i with
        | some e =>
            if (rpm.rxPacketEntries e).packet.srcNodeId = nodeId then
              let rpm := rpm.setInUse e false
              removeAllPacketsLoop nodeId fuel (i + 1)
                { rpm with rxPacketQueue := Function.update rpm.rxPacketQueue i none }
            else removeAllPacketsLoop nodeId fuel (i + 1) rpm
        | none => removeAllPacketsLoop nodeId fuel (i + 1) rpm
      else
        .ok rpm

def rxManagerRemoveAllPackets (rpm : RxPacketManager) (nodeId : TNodeIndex) :
    Except Fault RxPacketManager :=
  removeAllPacketsLoop nodeId (2 * rpm.maxRxPacketEntries + 2) rpm.start rpm

/-- The loop of `peekNextRxDataPacket`: it drops the ring slots that a removal emptied. -/
def peekLoop : Nat → RxPacketManager → Except Fault (Option Nat × RxPacketManager)
  | 0, _ => .error (.assertFailed .peekNextRxDataPacket)
  | fuel + 1, rpm =>
      if rpm.isEmpty then .ok (none, rpm)
      else
        match rpm.rxPacketQueue rpm.start with
        | none => do peekLoop fuel (← rpm.pop .peekNextRxDataPacket)
        | some entry => .ok (some entry, rpm)

def peekNextRxDataPacket (rpm : RxPacketManager) : Except Fault (Option Nat × RxPacketManager) :=
  peekLoop rpm.maxRxPacketEntries rpm

def popNextDataPacket (rpm : RxPacketManager) : Except Fault RxPacketManager := do
  if rpm.isEmpty then throw (.nullPointer .popNextDataPacket)
  let some entry := rpm.rxPacketQueue rpm.start | throw (.nullPointer .popNextDataPacket)
  (rpm.setInUse entry false).pop .popNextDataPacket

structure RxData where
  srcNodeId : TNodeIndex
  size : Nat
  data : PacketData

def rxManagerInit (maxRxPacketEntries : UInt8) : RxPacketManager where
  maxRxPacketEntries := maxRxPacketEntries.toNat
  rxPacketEntries := fun _ => ⟨false, Packet.zero⟩
  rxPacketQueue := fun _ => none
  start := 0
  endIndex := 0
  rxBufferLevel := 0

end Microbus
