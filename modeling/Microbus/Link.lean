import Microbus.TxAck
import Microbus.Foundation.GoBackN

/-! One sender and the receivers of its packets, joined by channels that lose frames and
acknowledgements but keep their order. -/
namespace Microbus

open Transition

/-- What the application gives and gets: a size and the data area. -/
structure Payload where
  size : Nat
  data : PacketData

def Packet.payload (p : Packet) : Payload := ⟨p.getPacketDataSize, p.data⟩

theorem payload_fillHeader {isMaster : Bool} {src dst : TNodeIndex} {type : PacketType} {size : UInt16} {q : UInt8}
    (p : Packet) : (fillHeader p isMaster src dst type size q).payload = ⟨size.toNat, p.data⟩ := by
  have hsize := Packet.getPacketDataSize_set p size
  cases isMaster with
  | true => exact congrArg₂ Payload.mk hsize rfl
  | false => exact congrArg₂ Payload.mk hsize rfl

/-- Which side sends, and the id that it has at the receivers. -/
structure LinkConfig where
  isMaster : Bool
  srcNodeId : TNodeIndex

/-- The two ends and what is in flight, for each destination. The last four fields record the
history: what was submitted to a destination and accepted there, the number of the packet that
an entry holds among those submitted to its destination, and the packets freed so far. -/
structure Link where
  sender : TxManager
  receiver : TNodeIndex → TxManager
  data : TNodeIndex → List (UInt8 × Payload)
  acks : TNodeIndex → List UInt8
  submitted : TNodeIndex → List Payload
  accepted : TNodeIndex → List Payload
  holder : Nat → Option (TNodeIndex × Nat)
  freed : List (Option (TNodeIndex × Nat))

inductive LinkAction
  | allocate
  | write (data : PacketData)
  | submit (masterDstNodeTTL : Nat) (dstNodeId : TNodeIndex) (packetType : PacketType) (dataSize : UInt16)
  | transmit (burstSize : Nat)
  | loseData (d : TNodeIndex) (i : Nat)
  | loseAck (d : TNodeIndex) (i : Nat)
  | refuse (d : TNodeIndex)
  | receive (d : TNodeIndex)
  | sendAck (d : TNodeIndex)
  | receiveAck (d : TNodeIndex)

namespace Link

/-- `none` when the store is full. -/
def allocate (s : Link) : Except Fault Link := do
  let (packet, sender) ← allocateTxPacket s.sender
  match packet with
  | none => return { s with sender }
  | some i => return { s with sender, holder := Function.update s.holder i none }

/-- The packet that is submitted. -/
def pendingPayload (s : Link) (dataSize : UInt16) : Option Payload :=
  s.sender.allocatedPacket.map fun i => ⟨dataSize.toNat, (s.sender.entry i).packet.data⟩

/-- A packet discarded because its destination left is not counted as submitted. -/
def submit (cfg : LinkConfig) (s : Link) (masterDstNodeTTL : Nat) (dstNodeId : TNodeIndex)
    (packetType : PacketType) (dataSize : UInt16) : Except Fault Link := do
  let sender ← submitAllocatedTxPacket s.sender cfg.isMaster masterDstNodeTTL cfg.srcNodeId dstNodeId
    packetType dataSize
  if cfg.isMaster ∧ masterDstNodeTTL = 0 then
    return { s with sender }
  match s.sender.allocatedPacket with
  | none => return { s with sender }
  | some i =>
      return { s with
        sender
        submitted := Function.update s.submitted dstNodeId
          (s.submitted dstNodeId ++ (s.pendingPayload dataSize).toList)
        holder := Function.update s.holder i (some (dstNodeId, (s.submitted dstNodeId).length)) }

def getNextTxDataPacket (cfg : LinkConfig) (sender : TxManager) (burstSize : Nat) :
    Except Fault (Option Nat × TxManager) :=
  if cfg.isMaster then masterGetNextTxDataPacket sender burstSize else nodeGetNextTxDataPacket sender

/-- The frame goes to the channel of its destination. -/
def transmit (cfg : LinkConfig) (s : Link) (burstSize : Nat) : Except Fault Link := do
  let (packet, sender) ← getNextTxDataPacket cfg s.sender burstSize
  match packet with
  | none => return { s with sender }
  | some i =>
      let packet := (sender.entry i).packet
      let dst := if cfg.isMaster then packet.dstNodeId else masterNodeId
      return { s with
        sender
        data := Function.update s.data dst (s.data dst ++ [(packet.txSeqNum, packet.payload)]) }

/-- The frame at the head of the channel reaches a receiver that has a free buffer. -/
def receive (cfg : LinkConfig) (s : Link) (d : TNodeIndex) : Except Fault Link :=
  match s.data d with
  | [] => .ok s
  | (txSeqNum, payload) :: rest => do
      let (valid, receiver) ← rxPacketCheckAndUpdateSeqNum (s.receiver d) cfg.srcNodeId txSeqNum
      return { s with
        data := Function.update s.data d rest
        receiver := Function.update s.receiver d receiver
        accepted :=
          if valid then Function.update s.accepted d (s.accepted d ++ [payload]) else s.accepted }

/-- What the entries hold that `after` no longer has in use. -/
def freedBetween (holder : Nat → Option (TNodeIndex × Nat)) (before after : TxManager) :
    List (Option (TNodeIndex × Nat)) :=
  ((List.range before.size).filter fun i => (before.entry i).inUse && !(after.entry i).inUse).map holder

def receiveAck (cfg : LinkConfig) (s : Link) (d : TNodeIndex) : Except Fault Link :=
  match s.acks d with
  | [] => .ok s
  | ackSeqNum :: rest => do
      let (_, sender) ← rxAckSeqNum s.sender d ackSeqNum cfg.isMaster
      return { s with
        sender
        acks := Function.update s.acks d rest
        freed := s.freed ++ freedBetween s.holder s.sender sender }

def step (cfg : LinkConfig) (s : Link) : LinkAction → Except Fault Link
  | .allocate => s.allocate
  | .write data => .ok { s with sender := writeAllocatedPacket s.sender data }
  | .submit ttl dst type size => s.submit cfg ttl dst type size
  | .transmit burstSize => s.transmit cfg burstSize
  | .loseData d i => .ok { s with data := Function.update s.data d ((s.data d).eraseIdx i) }
  | .loseAck d i => .ok { s with acks := Function.update s.acks d ((s.acks d).eraseIdx i) }
  | .refuse d => .ok { s with data := Function.update s.data d (s.data d).tail }
  | .receive d => s.receive cfg d
  | .sendAck d =>
      .ok { s with acks := Function.update s.acks d (s.acks d ++ [(s.receiver d).rxSeqNum cfg.srcNodeId]) }
  | .receiveAck d => s.receiveAck cfg d

def fresh (sender : TxManager) (receiver : TNodeIndex → TxManager) : Link where
  sender := sender
  receiver := receiver
  data := fun _ => []
  acks := fun _ => []
  submitted := fun _ => []
  accepted := fun _ => []
  holder := fun _ => none
  freed := []

end Link

/-- A node sends to the master. The packet memory of both may hold anything. -/
def uplinkSystem (srcNodeId : TNodeIndex) (maxEntries : UInt8) : System Link LinkAction Fault where
  init s := ∃ (entries rxEntries : Nat → PacketEntry) (rxMaxEntries : UInt8),
    s = Link.fresh (initTxManager 1 none maxEntries entries)
      (fun _ => initTxManager maxNodes (some NodeQueue.empty) rxMaxEntries rxEntries)
  step s a := s.step { isMaster := false, srcNodeId } a

/-- The master sends to the nodes, each of which has a receiver of its own. -/
def downlinkSystem (maxEntries : UInt8) : System Link LinkAction Fault where
  init s := ∃ (entries : Nat → PacketEntry) (rxEntries : TNodeIndex → Nat → PacketEntry)
      (rxMaxEntries : TNodeIndex → UInt8),
    s = Link.fresh (initTxManager maxNodes (some NodeQueue.empty) maxEntries entries)
      (fun d => initTxManager 1 none (rxMaxEntries d) (rxEntries d))
  step s a := s.step { isMaster := true, srcNodeId := masterNodeId } a

end Microbus
