import Microbus.MasterOps
import Microbus.Link

/-! The runs of a master: slots, frames, the timer and the application in any order. -/
namespace Microbus

open Transition

/-- Which of the two slot interfaces is used. -/
inductive ChannelMode
  | dual | single
  deriving DecidableEq, Repr

inductive MasterAction : ChannelMode → Type
  | preProcess (frame : Packet) (crcError : Bool) (stray : TNodeIndex → UInt8) : MasterAction .dual
  | postProcess : MasterAction .dual
  | processRx (frame : Packet) (crcError : Bool) : MasterAction .single
  | processTx (stray : TNodeIndex → UInt8) : MasterAction .single
  | updateTimeUs {mode : ChannelMode} (usIncr : UInt32) : MasterAction mode
  | allocate {mode : ChannelMode} : MasterAction mode
  | write {mode : ChannelMode} (data : PacketData) : MasterAction mode
  | submit {mode : ChannelMode} (dstNodeId : TNodeIndex) (numBytes : UInt16) : MasterAction mode
  | peek {mode : ChannelMode} : MasterAction mode
  | pop {mode : ChannelMode} : MasterAction mode
  | getConnectedNodes {mode : ChannelMode} : MasterAction mode
  | resetTxCredits {mode : ChannelMode} : MasterAction mode

/-- A frame that `masterGetNextTxDataPacket` returned, with the packet that had been given its
number. -/
structure ReturnedFrame where
  dstNodeId : TNodeIndex
  txSeqNum : UInt8
  payload : Payload
  given : Option Payload

/-- The master with its history: the packet last given each number of each destination since the
destination was registered, and the frames returned so far. -/
structure MasterRun where
  master : Master
  given : TNodeIndex → UInt8 → Option Payload
  returned : List ReturnedFrame

namespace MasterRun

/-- The frame that a master chose. -/
def returnedBy (s : MasterRun) (tx : MasterTx) : List ReturnedFrame :=
  match tx.chosen with
  | none => []
  | some i =>
      let packet := (tx.txManager.entry i).packet
      [⟨packet.dstNodeId, packet.txSeqNum, packet.payload, s.given packet.dstNodeId packet.txSeqNum⟩]

/-- The master has chosen a frame and removed the nodes that timed out. -/
def afterTx (s : MasterRun) (master : Master) : MasterRun where
  master := master
  given := fun d => if master.masterNodeTimeToLive d = 0 then fun _ => none else s.given d
  returned := s.returned ++ s.returnedBy master.tx

/-- A packet to a node that is not there is not given a number. -/
def submit (s : MasterRun) (dstNodeId : TNodeIndex) (numBytes : UInt16) : Except Fault MasterRun := do
  let master ← masterSubmitAllocatedTxPacket s.master dstNodeId numBytes
  if s.master.masterNodeTimeToLive dstNodeId = 0 then
    return { s with master }
  let m := s.master.tx.txManager
  let payload := m.allocatedPacket.map fun i => (⟨numBytes.toNat, (m.entry i).packet.data⟩ : Payload)
  return { s with
    master
    given := Function.update s.given dstNodeId
      (Function.update (s.given dstNodeId) (m.txSeqNumEnd dstNodeId) payload) }

def step {mode : ChannelMode} (s : MasterRun) : MasterAction mode → Except Fault MasterRun
  | .preProcess frame crcError stray => do
      let (master, _) ← masterDualChannelPipelinedPreProcess (s.master.receive frame) crcError stray
      return { s with master }
  | .postProcess => do
      let (_, master) ← masterDualChannelPipelinedPostProcess s.master
      return s.afterTx master
  | .processRx frame crcError => do
      let (_, master) ← masterNoDelaySingleChannelProcessRx (s.master.receive frame) crcError
      return { s with master }
  | .processTx stray => do
      let (_, master, _) ← masterNoDelaySingleChannelProcessTx s.master stray
      return s.afterTx master
  | .updateTimeUs usIncr => .ok { s with master := masterUpdateTimeUs s.master usIncr }
  | .allocate => do
      let (_, master) ← masterAllocateTxPacket s.master
      return { s with master }
  | .write data => .ok { s with master := masterWriteAllocatedPacket s.master data }
  | .submit dstNodeId numBytes => s.submit dstNodeId numBytes
  | .peek => do
      let (_, master) ← masterPeekNextRxDataPacket s.master
      return { s with master }
  | .pop => do
      let master ← masterPopNextDataPacket s.master
      return { s with master }
  | .getConnectedNodes => do
      let (master, _) ← getConnectedNodesBitField s.master
      return { s with master }
  | .resetTxCredits => .ok { s with master := masterResetTxCredits s.master }

end MasterRun

structure MasterConfig where
  mode : ChannelMode
  numTxNodesScheduled : UInt8
  maxTxPacketEntries : UInt8
  maxRxPacketEntries : UInt8

/-- The packet memory may hold anything at the start. -/
def masterSystem (cfg : MasterConfig) : System MasterRun (MasterAction cfg.mode) Fault where
  init s := ∃ entries, masterInit cfg.numTxNodesScheduled cfg.maxTxPacketEntries entries cfg.maxRxPacketEntries =
      .ok s.master ∧ s.given = (fun _ _ => none) ∧ s.returned = []
  step := MasterRun.step

end Microbus
