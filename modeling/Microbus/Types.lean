import Mathlib.Algebra.Group.Nat.Defs
import Mathlib.Logic.Function.Basic
import Mathlib.Data.Fintype.Basic

/-! Constants, packets and faults of `microbus.h`. A table of the C code that a
`tNodeIndex` indexes is a function on all 256 bytes; the functions that use one
check the index against the table's length first. -/
namespace Microbus

abbrev TNodeIndex := UInt8

section Members

variable {p : TNodeIndex → Prop} [DecidablePred p]

/-! Only the members are tried, not every id. -/

instance (priority := high) (d : Option TNodeIndex) : Decidable (∀ e ∈ d, p e) := Option.decidableForallMem d

instance (priority := high) (ids : List TNodeIndex) : Decidable (∀ d ∈ ids, p d) := List.decidableBAll p ids

end Members

def maxNodes : Nat := 64
def mbPacketSize : Nat := 192
def slotTimeUs : Nat := (8 * mbPacketSize * 10) / 45
def slidingWindowSize : UInt8 := 4
def microbusVersion : UInt8 := 1

def masterNodeId : TNodeIndex := 0
def firstNodeId : Nat := 1
def unallocatedNodeId : TNodeIndex := 0xFE
def invalidNodeId : TNodeIndex := 0xFF

def maxTxNodesScheduled : Nat := 4
def mbHeaderSize : Nat := 6 + 2 * maxTxNodesScheduled
def masterPacketDataSize : Nat := mbPacketSize - mbHeaderSize
def nodePacketDataSize : Nat := masterPacketDataSize
def maxPacketDataSize : Nat := max masterPacketDataSize nodePacketDataSize

def invalidSequenceNum : UInt8 := 255
def nullSequenceNum : UInt8 := 255
def maxSequenceNum : UInt8 := 255

inductive PacketType
  | null | masterData | nodeData | masterEmpty | nodeEmpty
  | newNodeRequest | newNodeResponse | masterReset
  deriving DecidableEq, Repr

def PacketType.code : PacketType → UInt8
  | .null => 0
  | .masterData => 1
  | .nodeData => 2
  | .masterEmpty => 3
  | .nodeEmpty => 4
  | .newNodeRequest => 5
  | .newNodeResponse => 6
  | .masterReset => 7

/-- The type nibble of a received frame; the codes 8 to 15 name no type. -/
def PacketType.ofCode (c : UInt8) : Option PacketType :=
  if c = 0 then some .null
  else if c = 1 then some .masterData
  else if c = 2 then some .nodeData
  else if c = 3 then some .masterEmpty
  else if c = 4 then some .nodeEmpty
  else if c = 5 then some .newNodeRequest
  else if c = 6 then some .newNodeResponse
  else if c = 7 then some .masterReset
  else none

abbrev PacketData := Fin masterPacketDataSize → UInt8

/-- `tPacket`. The union is stored in the layout of `tMasterPacket`; the fields of
`tNodePacket` are other names of the same bytes. -/
structure Packet where
  protocolVersionAndPacketType : UInt8
  txSeqNum : UInt8
  dataSize1 : UInt8
  dataSize2 : UInt8
  nextTxNodeId : Fin 4 → UInt8
  nextTxNodeAckSeqNum : Fin 4 → UInt8
  dstNodeId : TNodeIndex
  wirelessDstNodeId : UInt8
  data : PacketData

namespace Packet

/-! The `node` half of the union. -/
def ackSeqNum (p : Packet) : UInt8 := p.nextTxNodeId 0
def srcNodeId (p : Packet) : TNodeIndex := p.nextTxNodeId 1
def bufferLevel (p : Packet) : UInt8 := p.nextTxNodeId 3

def setAckSeqNum (p : Packet) (v : UInt8) : Packet :=
  { p with nextTxNodeId := Function.update p.nextTxNodeId 0 v }

def setSrcNodeId (p : Packet) (v : TNodeIndex) : Packet :=
  { p with nextTxNodeId := Function.update p.nextTxNodeId 1 v }

def setBufferLevel (p : Packet) (v : UInt8) : Packet :=
  { p with nextTxNodeId := Function.update p.nextTxNodeId 3 v }

def setProtocolVersionAndPacketType (p : Packet) (t : PacketType) : Packet :=
  { p with protocolVersionAndPacketType := (microbusVersion <<< 4) ||| (t.code &&& 0xF) }

def setPacketDataSize (p : Packet) (dataSize : UInt16) : Packet :=
  { p with dataSize1 := (dataSize >>> 8).toUInt8, dataSize2 := (dataSize &&& 0xFF).toUInt8 }

def getProtocolVersion (p : Packet) : UInt8 := (p.protocolVersionAndPacketType >>> 4) &&& 0xF

def getPacketType (p : Packet) : Option PacketType :=
  PacketType.ofCode (p.protocolVersionAndPacketType &&& 0xF)

def getPacketDataSize (p : Packet) : Nat := (p.dataSize1.toNat <<< 8) ||| p.dataSize2.toNat

def zero : Packet where
  protocolVersionAndPacketType := 0
  txSeqNum := 0
  dataSize1 := 0
  dataSize2 := 0
  nextTxNodeId := fun _ => 0
  nextTxNodeAckSeqNum := fun _ => 0
  dstNodeId := 0
  wirelessDstNodeId := 0
  data := fun _ => 0

end Packet

structure PacketEntry where
  inUse : Bool
  packet : Packet

/-- The functions of the source that contain an assertion or follow a pointer or an
index that they do not check. -/
inductive Site
  | nodeQueueAdd | nodeQueueRemove
  | findPacketEntry | allocateTxPacket | submitAllocatedTxPacket | getNextTxPacketForNode
  | masterGetNextTxDataPacket | rxAckSeqNum | rxPacketCheckAndUpdateSeqNum
  | masterTxManagerRemoveNode
  | addRxDataPacket | rxManagerRemoveAllPackets | peekNextRxDataPacket | popNextDataPacket
  | getNextMasterRxAckNode | scheduleNextNode | schedulerUpdateNodeTxBufferLevel
  | networkManagerRegisterNewNode | networkManagerRemoveNewNodeRequest
  | networkManagerRecordRxPacket | rxNewNodePacketRequest | rxNewNodePacketResponse
  | masterRxInit | masterQuickProcessPrevRx | masterProcessRx | masterProcessTx
  | masterSubmitAllocatedTxPacket | getConnectedNodesBitField
  | nodeInit | nodeQuickProcessPrevRx | nodeProcessRxData | nodeSubmitAllocatedTxPacket
  | nodePeekNextRxDataPacket
  deriving DecidableEq, Repr

/-- What stops the program. A failed `microbusAssert` loops for ever in `assertMessage`,
so nothing after it runs. `outOfFuel` marks a C loop that did not end within the bound
its model was given. -/
inductive Fault
  | assertFailed (s : Site)
  | nullPointer (s : Site)
  | outOfBounds (s : Site)
  | outOfFuel (s : Site)
  deriving DecidableEq, Repr

def microbusAssert (p : Prop) [Decidable p] (s : Site) : Except Fault Unit :=
  if p then .ok () else .error (.assertFailed s)

/-- The check, absent from the source, that an index lies in a table of `size` entries. -/
def checkIndex (size : Nat) (i : TNodeIndex) (s : Site) : Except Fault Unit :=
  if i.toNat < size then .ok () else .error (.outOfBounds s)

theorem Packet.getPacketDataSize_set (p : Packet) (n : UInt16) :
    (p.setPacketDataSize n).getPacketDataSize = n.toNat := by
  have hhigh : (n >>> 8).toUInt8.toNat = n.toNat / 256 := by
    have hlt := n.toNat_lt
    rw [UInt16.toNat_toUInt8, UInt16.toNat_shiftRight]
    have h8 : (8 : UInt16).toNat % 16 = 8 := rfl
    rw [h8, Nat.shiftRight_eq_div_pow]
    exact Nat.mod_eq_of_lt (by omega)
  have hlow : (n &&& 0xFF).toUInt8.toNat = n.toNat % 256 := by
    rw [UInt16.toNat_toUInt8, UInt16.toNat_and]
    have h8 : (0xFF : UInt16).toNat = 2 ^ 8 - 1 := rfl
    rw [h8, Nat.and_two_pow_sub_one_eq_mod]
    omega
  unfold getPacketDataSize setPacketDataSize
  simp only [hhigh, hlow]
  rw [← Nat.shiftLeft_add_eq_or_of_lt (by omega), Nat.shiftLeft_eq]
  omega

end Microbus
