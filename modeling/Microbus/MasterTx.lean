import Microbus.TxManager
import Microbus.NetworkManager

/-! `masterTx.c`: what the master sends in the next slot. -/
namespace Microbus

/-- Where a `tPacket *` of the transmit path points to. -/
inductive TxRef
  | entry (i : Nat)
  | tmpPacket
  | tmpEmptyPacketHeader (i : Nat)
  deriving DecidableEq, Repr

/-- `tMasterTx`. An empty header is kept as a packet: the bytes that the hardware reads past
the header are not modelled. -/
structure MasterTx where
  nextTxPacket : Option TxRef
  tmpPacketCycle : Nat
  tmpEmptyPacketHeader : Nat → Packet
  tmpPacket : Packet
  masterResetCycles : Nat
  txManager : TxManager

namespace MasterTx

def deref (tx : MasterTx) : TxRef → Packet
  | .entry i => (tx.txManager.packetStore.entries i).packet
  | .tmpPacket => tx.tmpPacket
  | .tmpEmptyPacketHeader i => tx.tmpEmptyPacketHeader i

def assign (tx : MasterTx) (r : TxRef) (p : Packet) : MasterTx :=
  match r with
  | .entry i =>
      { tx with
        txManager := { tx.txManager with packetStore := tx.txManager.packetStore.setPacket i p } }
  | .tmpPacket => { tx with tmpPacket := p }
  | .tmpEmptyPacketHeader i =>
      { tx with tmpEmptyPacketHeader := Function.update tx.tmpEmptyPacketHeader i p }

end MasterTx

/-- The schedule and the acknowledgements of an outgoing frame. A scheduled id past the end
of the table `rxSeqNum` makes the master read the memory behind it, here `stray`. -/
def fillSchedule (txManager : TxManager) (numTxNodesScheduled : Nat) (nextTxNodeId : Nat → TNodeIndex)
    (stray : TNodeIndex → UInt8) (p : Packet) : Packet :=
  { p with
    nextTxNodeId := fun i => if i.val < numTxNodesScheduled then nextTxNodeId i else p.nextTxNodeId i
    nextTxNodeAckSeqNum := fun i =>
      if i.val < numTxNodesScheduled then
        if (nextTxNodeId i).toNat < txManager.maxTxNodes then txManager.rxSeqNum (nextTxNodeId i)
        else stray (nextTxNodeId i)
      else p.nextTxNodeAckSeqNum i }

def masterQuickUpdateTxPacket (tx : MasterTx) (numTxNodesScheduled : Nat)
    (nextTxNodeId : Nat → TNodeIndex) (stray : TNodeIndex → UInt8) : MasterTx :=
  match tx.nextTxPacket with
  | none => tx
  | some r =>
      tx.assign r (fillSchedule tx.txManager numTxNodesScheduled nextTxNodeId stray (tx.deref r))

def masterBurstSize : Nat := 1

def masterProcessTx (tx : MasterTx) (nwManager : NetworkManager) : Except Fault MasterTx := do
  if tx.masterResetCycles > 0 then
    return { tx with
      masterResetCycles := tx.masterResetCycles - 1
      tmpPacket := tx.tmpPacket.setProtocolVersionAndPacketType .masterReset
      nextTxPacket := some .tmpPacket }
  let tmpPacketCycle := if tx.tmpPacketCycle + 1 ≥ 4 then 0 else tx.tmpPacketCycle + 1
  let tx := { tx with tmpPacketCycle }
  if nwManager.numNewNodes > 0 ∧ tx.tmpPacketCycle = 1 then
    return { tx with
      tmpPacket := txNewNodeResponse nwManager tx.tmpPacket
      nextTxPacket := some .tmpPacket }
  let (txPacket, txManager) ← masterGetNextTxDataPacket tx.txManager masterBurstSize
  let tx := { tx with txManager }
  match txPacket with
  | none =>
      let i := tx.tmpPacketCycle % 2
      let header := (tx.tmpEmptyPacketHeader i).setProtocolVersionAndPacketType .masterEmpty
      let header := { header with dataSize1 := 0, dataSize2 := 0, dstNodeId := invalidNodeId }
      return { tx with
        tmpEmptyPacketHeader := Function.update tx.tmpEmptyPacketHeader i header
        nextTxPacket := some (.tmpEmptyPacketHeader i) }
  | some i =>
      microbusAssert ((txManager.packetStore.entries i).packet.getPacketDataSize < maxPacketDataSize)
        .masterProcessTx
      return { tx with nextTxPacket := some (.entry i) }

/-- The frame behind the pointer that `masterTxGetNextTxPacket` returns. -/
def masterTxGetNextTxPacket (tx : MasterTx) : Option Packet := tx.nextTxPacket.map tx.deref

/-- `tMasterTx` lies in the zeroed `tMaster`. -/
def masterTxInit (maxTxPacketEntries : UInt8) (txPacketEntries : Nat → PacketEntry) : MasterTx where
  nextTxPacket := some .tmpPacket
  tmpPacketCycle := 0
  tmpEmptyPacketHeader := fun _ => Packet.zero
  tmpPacket := { Packet.zero.setProtocolVersionAndPacketType .masterEmpty with dstNodeId := invalidNodeId }
  masterResetCycles := 0
  txManager := initTxManager maxNodes (some NodeQueue.empty) maxTxPacketEntries txPacketEntries

end Microbus
