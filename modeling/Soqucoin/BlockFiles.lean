import Mathlib.Logic.Function.Basic
import Mathlib.Tactic

/-! # BlockFiles — the numbering of the block files

`vinfoBlockFile` and `nLastBlockFile` of `validation.cpp`, with the functions
that choose a place in them: `FindBlockPos` for a new block, and the reservation
of a target by witness compaction. -/

namespace Soqucoin

def MAX_BLOCKFILE_SIZE : Nat := 0x8000000

/-- `CBlockFileInfo`, without the heights and times, which nothing here reads. -/
structure CBlockFileInfo where
  nBlocks : Nat := 0
  nSize : Nat := 0
  nUndoSize : Nat := 0
deriving DecidableEq

/-- All fields are as `SetNull` leaves them. -/
def CBlockFileInfo.isNull (info : CBlockFileInfo) : Bool :=
  info.nBlocks = 0 && info.nSize = 0 && info.nUndoSize = 0

/-- A place in a block file. -/
structure CDiskBlockPos where
  nFile : Nat
  nPos : Nat
deriving DecidableEq

/-- The file infos and the append pointer.  A number the vector does not reach
    has the null info that `resize` would give it. -/
structure BlockFiles where
  vinfoBlockFile : Nat → CBlockFileInfo := fun _ => {}
  /-- `vinfoBlockFile.size()`. -/
  nFiles : Nat := 1
  nLastBlockFile : Nat := 0

namespace BlockFiles

/-- Replace the info of one file. -/
def setInfo (f : BlockFiles) (nFile : Nat) (info : CBlockFileInfo) : BlockFiles :=
  { f with vinfoBlockFile := Function.update f.vinfoBlockFile nFile info }

/-- The first file from `nFile` on, among the next so many, with room for the
    block; the one after them where none has. -/
def firstRoom (f : BlockFiles) (nAddSize : Nat) : Nat → Nat → Nat
  | 0, nFile => nFile
  | k + 1, nFile =>
    if MAX_BLOCKFILE_SIZE ≤ (f.vinfoBlockFile nFile).nSize + nAddSize then
      f.firstRoom nAddSize k (nFile + 1)
    else nFile

/-- The file that the next block goes into. -/
def nextFile (f : BlockFiles) (nAddSize : Nat) : Nat :=
  f.firstRoom nAddSize (f.nFiles - f.nLastBlockFile) f.nLastBlockFile

/-- `FindBlockPos`: the place of a new block, and the file infos with it. -/
def findBlockPos (f : BlockFiles) (nAddSize : Nat) : CDiskBlockPos × BlockFiles :=
  let nFile := f.nextFile nAddSize
  let info := f.vinfoBlockFile nFile
  (⟨nFile, info.nSize⟩,
    { f.setInfo nFile { info with nBlocks := info.nBlocks + 1, nSize := info.nSize + nAddSize }
      with nFiles := max f.nFiles (nFile + 1), nLastBlockFile := nFile })

/-- The highest number that an index entry with data, the append pointer or a file info uses. -/
def nHighestUsed (f : BlockFiles) (indexed : List Nat) : Nat :=
  (indexed ++ (List.range f.nFiles).filter (fun n => !(f.vinfoBlockFile n).isNull)).foldl max
    f.nLastBlockFile

/-- The reservation at the start of `CompactOneWitnessFile`: a target number that
    nothing occupies, with the append pointer moved past it. -/
def reserve (f : BlockFiles) (indexed : List Nat) : Nat × BlockFiles :=
  let nTargetFile := f.nHighestUsed indexed + 1
  (nTargetFile,
    { f.setInfo nTargetFile {} with
      nFiles := max f.nFiles (nTargetFile + 2), nLastBlockFile := nTargetFile + 1 })

/-- The commit of `CompactOneWitnessFile`: the target's info is filled in, the source's retired. -/
def retire (f : BlockFiles) (nFile nTargetFile : Nat) (info : CBlockFileInfo) : BlockFiles :=
  (f.setInfo nTargetFile info).setInfo nFile {}

end BlockFiles

end Soqucoin
