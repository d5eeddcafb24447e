import Soqucoin.ChainProofs

/-! # VerifyDB — checking the last blocks again

`CVerifyDB::VerifyDB` of `validation.cpp`.  It walks down from the tip: reads and checks each
block, and from level 3 on disconnects it from a scratch view of the coins; at level 4 it connects
the disconnected blocks again, with the same `ConnectBlock` that extends the chain.  The scratch
view is dropped at the end; the asset state is not part of it.  Of a block whose witnesses have
been pruned there is only the stripped form to be read. -/

namespace Soqucoin

open CheckedLoop

/-- What `ReadBlockFromDisk` reads of a block. -/
def Entry.stored (e : Entry) : CBlock :=
  if e.idx.witnessPruned then { e.block with vtx := e.block.vtx.map CTransaction.stripWitness }
  else e.block

/-- The arguments of the call, and what it finds on disk and in memory. -/
structure VerifyIO where
  nCheckLevel : Int
  nCheckDepth : Int
  fPruneMode : Bool
  /-- `BLOCK_HAVE_DATA`. -/
  haveData : CBlockIndex → Bool
  readBlockFromDisk : CBlockIndex → Bool
  undoReadFromDisk : CBlockIndex → Bool
  /-- The two coin caches are within `nCoinCacheUsage`. -/
  cacheFits : CoinsView → Bool
  /-- A shutdown is requested while the block is looked at. -/
  shutdownRequested : CBlockIndex → Bool
  /-- How the writes of `ConnectBlock` go. -/
  connectIO : CBlockIndex → NodeIO

namespace VerifyIO

/-- The depth, at most the height of the chain. -/
def depth (v : VerifyIO) (height : Int) : Int :=
  let nCheckDepth := if v.nCheckDepth ≤ 0 then 1000000000 else v.nCheckDepth
  if height < nCheckDepth then height else nCheckDepth

/-- The block is among those the call looks at. -/
def inWindow (v : VerifyIO) (height : Int) (e : Entry) : Bool :=
  height - v.depth height ≤ e.idx.nHeight

end VerifyIO

end Soqucoin
