import Trusty.Lib.Align

/-!
# Storage data model

Values that every layer of secure storage shares: block numbers, block and mac pairs,
block ranges, and the parameters of a block device.
-/

namespace Trusty.Storage

abbrev DataBlock := UInt64

/-- Sixteen bytes; a file system compares the first `mac_size` of them. -/
abbrev Mac := BitVec 128

/-- `struct block_mac`, unpacked. Block number zero marks an invalid pair. -/
structure BlockMac where
  block : DataBlock
  mac : Mac
  deriving DecidableEq, Repr

namespace BlockMac

/-- `BLOCK_MAC_INITIAL_VALUE`. -/
def clear : BlockMac := ⟨0, 0⟩

def valid (blockMac : BlockMac) : Bool := blockMac.block != 0

def sameBlock (left right : BlockMac) : Bool := left.block == right.block

end BlockMac

/-- `struct block_range`: the blocks from `start` up to but excluding `stop`. -/
structure BlockRange where
  start : Nat
  stop : Nat
  deriving DecidableEq, Repr

def BlockRange.clear : BlockRange := ⟨0, 0⟩

def BlockRange.contains (range : BlockRange) (block : Nat) : Bool :=
  decide (range.start ≤ block ∧ block < range.stop)

/-- The parameters of `struct block_device`. Sizes are `size_t` of a 32-bit
trusted app. -/
structure BlockDevice where
  blockCount : DataBlock
  blockSize : UInt32
  blockNumSize : UInt32
  macSize : UInt32
  tamperDetecting : Bool
  deriving DecidableEq, Repr

end Trusty.Storage
