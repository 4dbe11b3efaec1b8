import Trusty.Storage.Basic

/-!
# Super block

Loading, selecting and writing the two super blocks of a file system in `super.c`. A
slot is the decrypted `struct super_block` that a read of it returns.
-/

namespace Trusty.Storage

def superBlockMagic : UInt64 := 0x0073797473757274

def superBlockFlagsVersionMask : UInt32 := 0x3

def superBlockFlagsBlockIndexMask : UInt32 := 0x1

def superBlockFsVersion : UInt32 := 0

/-- `sizeof(struct super_block)`. -/
def superBlockSize : UInt32 := 128

/-- The fields of `struct super_block` that are read or written. -/
structure SuperBlock where
  magic : UInt64
  flags : UInt32
  fsVersion : UInt32
  blockSize : UInt32
  blockNumSize : UInt8
  macSize : UInt8
  blockCount : DataBlock
  free : BlockMac
  freeCount : DataBlock
  files : BlockMac
  flags2 : UInt32
  deriving DecidableEq, Repr

/-- The part of `struct fs` that mounting and committing work on. -/
structure Fs where
  dev : BlockDevice
  superDev : BlockDevice
  minBlockNum : DataBlock
  freeRoot : BlockMac
  freeInitialRange : BlockRange
  filesRoot : BlockMac
  superBlockVersion : UInt32
  writtenSuperBlockVersion : UInt32
  blockNumSize : UInt32
  macSize : UInt32
  reservedCount : DataBlock
  deriving DecidableEq, Repr

/-- `update_super_block` once the cleared block is available: the slot to
write, its new content, and the file system with the written version noted. -/
def updateSuperBlock (fs : Fs) (free files : BlockMac) : UInt32 × SuperBlock × Fs :=
  let ver := (fs.superBlockVersion + 1) &&& superBlockFlagsVersionMask
  let index := ver &&& superBlockFlagsBlockIndexMask
  let super := {
    magic := superBlockMagic
    flags := ver
    fsVersion := superBlockFsVersion
    blockSize := fs.dev.blockSize
    blockNumSize := fs.blockNumSize.toUInt8
    macSize := fs.macSize.toUInt8
    blockCount := fs.dev.blockCount
    free := free
    freeCount := 0
    files := files
    flags2 := ver }
  (index, super, { fs with writtenSuperBlockVersion := ver })

def superBlockValid (dev : BlockDevice) (super : SuperBlock) : Bool :=
  if super.magic ≠ superBlockMagic then false
  else if super.flags ≠ super.flags2 then false
  else if super.fsVersion > superBlockFsVersion then true
  else if super.flags &&& ~~~superBlockFlagsVersionMask ≠ 0 then false
  else if super.blockSize ≠ dev.blockSize then false
  else if super.blockNumSize.toUInt32 < dev.blockNumSize ∨ super.blockNumSize > 8 then false
  else if super.macSize.toUInt32 < dev.macSize ∨ super.macSize > 16 then false
  else if !dev.tamperDetecting ∧ super.macSize ≠ 16 then false
  else if super.blockCount > dev.blockCount then false
  else true

def useNewSuper (dev : BlockDevice) (newSuper : SuperBlock) (newSuperIndex : UInt32)
    (oldSuper : Option SuperBlock) : Bool :=
  if !superBlockValid dev newSuper then false
  else if newSuper.flags &&& superBlockFlagsBlockIndexMask ≠ newSuperIndex then false
  else
    match oldSuper with
    | none => true
    | some old =>
      let dv := (newSuper.flags - old.flags) &&& superBlockFlagsVersionMask
      if dv = 1 then true
      else if dv = 3 then false
      else false

abbrev SuperSlots := Fin 2 → SuperBlock

/-- One iteration of the loop of `load_super_block` over a readable slot. -/
def considerSuper (dev : BlockDevice) (slots : SuperSlots) (oldSuper : Option SuperBlock)
    (index : Fin 2) : Option SuperBlock :=
  if useNewSuper dev (slots index) (UInt32.ofNat index.val) oldSuper then some (slots index)
  else oldSuper

/-- The super block that the loop of `load_super_block` ends with. -/
def selectSuper (dev : BlockDevice) (slots : SuperSlots) : Option SuperBlock :=
  considerSuper dev slots (considerSuper dev slots none 0) 1

def fsInitEmpty (fs : Fs) : Fs :=
  { fs with freeInitialRange := ⟨fs.minBlockNum.toNat, fs.dev.blockCount.toNat⟩ }

inductive MountResult where
  | mounted (fs : Fs)
  | failed
  | assertFailed
  deriving DecidableEq, Repr

/-- `fs_init_from_super`, its closing assertions included. -/
def fsInitFromSuper (fs : Fs) (super : Option SuperBlock) (clear : Bool) : MountResult :=
  if super.any (fun block => block.fsVersion > superBlockFsVersion) then .failed
  else
    let super := if clear then none else super
    let sized : Fs :=
      match super with
      | some block =>
        { fs with
          blockNumSize := block.blockNumSize.toUInt32
          macSize := block.macSize.toUInt32 }
      | none => { fs with blockNumSize := fs.dev.blockNumSize, macSize := fs.dev.macSize }
    let trees : Fs :=
      { sized with
        freeRoot := .clear
        freeInitialRange := .clear
        filesRoot := .clear
        reservedCount := sized.dev.blockCount / 8 * 5 }
    let loaded : Fs :=
      match super with
      | some block =>
        { trees with
          freeRoot := block.free
          filesRoot := block.files
          superBlockVersion := block.flags &&& superBlockFlagsVersionMask }
      | none => fsInitEmpty trees
    if loaded.blockNumSize ≥ loaded.dev.blockNumSize ∧ loaded.blockNumSize ≤ 8 ∧
        loaded.macSize ≥ loaded.dev.macSize ∧ loaded.macSize ≤ 16 ∧
        (loaded.macSize = 16 ∨ loaded.dev.tamperDetecting) then
      .mounted loaded
    else .assertFailed

/-- `load_super_block`. A slot that is not readable ends the mount. -/
def loadSuperBlock (fs : Fs) (slots : SuperSlots) (readable : Fin 2 → Bool) (clear : Bool) :
    MountResult :=
  if !readable 0 || !readable 1 then .failed
  else fsInitFromSuper fs (selectSuper fs.dev slots) clear

/-- The zeroed `struct fs` that `proxy_connect` allocates, with the devices
`fs_init` stores in it. -/
def zeroFs (dev superDev : BlockDevice) (shared : Bool) : Fs where
  dev := dev
  superDev := superDev
  minBlockNum := if shared then 2 else 1
  freeRoot := .clear
  freeInitialRange := .clear
  filesRoot := .clear
  superBlockVersion := 0
  writtenSuperBlockVersion := 0
  blockNumSize := 0
  macSize := 0
  reservedCount := 0

/-- `fs_init` on a zeroed `struct fs`. `shared` tells whether `dev` and
`superDev` are one device. -/
def fsInit (dev superDev : BlockDevice) (shared : Bool) (slots : SuperSlots)
    (readable : Fin 2 → Bool) (clear : Bool) : MountResult :=
  if superDev.blockSize < superBlockSize then .failed
  else if superDev.blockCount < 2 then .failed
  else loadSuperBlock (zeroFs dev superDev shared) slots readable clear

end Trusty.Storage
