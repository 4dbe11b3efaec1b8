import Trusty.Lib.Align
import Trusty.Lib.Interaction

/-!
# Shared logs

`memlog.c`: ring buffers to which all that is printed is copied. The normal world
names them by physical address and size, and may change them at any moment.
-/

namespace Trusty.Monitor

variable {width : Nat}

/-- `struct memlog`, without its callback. The source does not keep `args`, the
arguments of the call that added the log. -/
structure Memlog (width : Nat) where
  rb : BitVec width
  rbSz : BitVec width
  bufPa : BitVec width
  bufSz : BitVec width
  args : UInt64 × UInt32
  deriving DecidableEq, Repr

/-- A region of the kernel address space, and the physical memory behind it. -/
structure Region (width : Nat) where
  base : BitVec width
  pa : BitVec width
  size : BitVec width
  deriving DecidableEq, Repr

def Region.Contains (region : Region width) (address : BitVec width) : Prop :=
  region.base.toNat ≤ address.toNat ∧ address.toNat < region.base.toNat + region.size.toNat

instance (region : Region width) (address : BitVec width) :
    Decidable (region.Contains address) :=
  inferInstanceAs (Decidable (_ ∧ _))

inductive LogOp (width : Nat) where
  | malloc
  | vmmAllocPhysical (size pa : BitVec width)
  | vmmFreeRegion (address : BitVec width)
  | load (log : Memlog width) (address : BitVec width)
  | store (log : Memlog width) (address : BitVec width) (value : UInt32)
  | storeChar (log : Memlog width) (address : BitVec width) (char : UInt8)

@[reducible] def LogOp.Reply : LogOp width → Type
  | .malloc | .vmmFreeRegion _ => Bool
  | .vmmAllocPhysical _ _ => Option (BitVec width)
  | .load _ _ => UInt32
  | .store _ _ _ | .storeChar _ _ _ => Unit

abbrev LogM (width : Nat) := Interaction (LogOp width) LogOp.Reply

variable (log : Memlog width)

def Memlog.alloc : BitVec width := log.rb

def Memlog.put : BitVec width := log.rb + 4

def Memlog.sz : BitVec width := log.rb + 8

/-- `offsetof(struct log_rb, data)`. -/
def headerSize : UInt32 := 12

def Memlog.data (offset : UInt32) : BitVec width :=
  log.rb + (12 + offset.toBitVec.setWidth width)

def load (address : BitVec width) : LogM width UInt32 :=
  .ask (.load log address) .done

def store (address : BitVec width) (value : UInt32) : LogM width Unit :=
  .ask (.store log address value) .done

def storeChar (address : BitVec width) (char : UInt8) : LogM width Unit :=
  .ask (.storeChar log address char) .done

/-- The loop of `__memlog_write`, from the character `i` on. -/
def writeChars (log : Memlog width) (logOffset : UInt32) : BitVec width → List UInt8 → LogM width Unit
  | _, [] => return ()
  | i, char :: rest => do
      let offset := (logOffset.toBitVec.setWidth width + i) &&& (log.rbSz - 1)
      storeChar log (log.data (.ofBitVec (offset.setWidth 32))) char
      writeChars log logOffset (i + 1) rest

/-- `__memlog_write`. -/
def memlogWriteChunk (str : List UInt8) : LogM width Unit := do
  let logOffset ← load log log.alloc
  let alloc ← load log log.alloc
  store log log.alloc (alloc + .ofNat str.length)
  writeChars log logOffset 0 str
  let put ← load log log.put
  store log log.put (put + .ofNat str.length)

/-- The chunks that are left of `memlog_write`, and the remainder. -/
def writeChunks (log : Memlog width) : Nat → List UInt8 → LogM width Unit
  | 0, str => if str.length ≠ 0 then memlogWriteChunk log str else return ()
  | chunks + 1, str => do
      memlogWriteChunk log (str.take 128)
      writeChunks log chunks (str.drop 128)

/-- `memlog_write`, as the print callback calls it. -/
def memlogWrite (str : List UInt8) : LogM width Unit :=
  writeChunks log (str.length / 128) str

inductive LogStatus where
  | success
  | invalidParameters
  | internalFailure
  deriving DecidableEq, Repr

def memlogIsMemRegistered (logs : List (Memlog width)) (pa sz : BitVec width) : Bool :=
  logs.any fun log => !(decide (pa + sz ≤ log.bufPa)) && !(decide (log.bufPa + log.bufSz ≤ pa))

/-- `lower_pow2`. It is not defined for zero, where the instructions of ARM for
`__builtin_clz` and the shift yield zero. -/
def lowerPow2 (value : UInt32) : UInt32 := if value = 0 then 0 else .ofNat (2 ^ value.toNat.log2)

def mb (width : Nat) : BitVec width := .ofNat width (2 ^ 20)

/-- `map_rb`. Nothing is mapped for size zero, and the address is then whatever
the caller's variable held. -/
def mapRb (pa sz : BitVec width) : LogM width (Option (BitVec width)) := do
  let offset := pa &&& (mb width - 1)
  let va ← .ask (.vmmAllocPhysical (Align.up (sz + offset) (mb width)) (Align.down pa (mb width))) .done
  match va with
  | none => return none
  | some va => return some (va + offset)

def initRb (rbSz : UInt32) : LogM width Unit := do
  store log log.sz rbSz
  store log log.alloc 0
  store log log.put 0

/-- `memlog_add`, as `memlog_stdcall` calls it. -/
def memlogAdd (logs : List (Memlog width)) (args : UInt64 × UInt32) :
    LogM width (LogStatus × List (Memlog width)) := do
  let pa := args.1.toBitVec.setWidth width
  let sz := args.2.toBitVec.setWidth width
  if memlogIsMemRegistered logs pa sz then
    return (.invalidParameters, logs)
  else
    let allocated ← .ask .malloc .done
    if allocated then
      match ← mapRb pa sz with
      | none => return (.internalFailure, logs)
      | some rb =>
        let rbSz := lowerPow2 (.ofBitVec (sz.setWidth 32) - headerSize)
        let log := ⟨rb, rbSz.toBitVec.setWidth width, pa, sz, args⟩
        initRb log rbSz
        return (.success, log :: logs)
    else
      return (.internalFailure, logs)

/-- `memlog_rm`, as `memlog_stdcall` calls it. -/
def memlogRm (logs : List (Memlog width)) (arg : UInt64) :
    LogM width (LogStatus × List (Memlog width)) := do
  let pa := arg.toBitVec.setWidth width
  match logs.find? (·.bufPa == pa) with
  | none => return (.invalidParameters, logs)
  | some log =>
    let freed ← .ask (.vmmFreeRegion log.rb) .done
    return (if freed then .success else .internalFailure, logs.eraseP (·.bufPa == pa))

def translate (regions : List (Region width)) (address : BitVec width) : Option (BitVec width) :=
  (regions.find? fun region => region.Contains address).map
    fun region => region.pa + (address - region.base)

/-- A place the kernel may give to a region: it does not wrap around, and no
other region is there. -/
def Free (regions : List (Region width)) (region : Region width) : Prop :=
  region.base.toNat + region.size.toNat ≤ 2 ^ width ∧
    ∀ other ∈ regions, ∀ address, ¬(region.Contains address ∧ other.Contains address)

/-- The regions as the functions change them, and memory the normal world writes. -/
def kernel (width : Nat) :
    Interaction.Environment (LogOp width) LogOp.Reply (List (Region width)) where
  move _ _ := False
  answer
    | regions, .vmmAllocPhysical size pa, some va, after =>
      (size = 0 ∧ after = regions) ∨
        (size ≠ 0 ∧ Free regions ⟨va, pa, size⟩ ∧ after = ⟨va, pa, size⟩ :: regions)
    | regions, .vmmFreeRegion address, freed, after =>
      freed = (regions.any fun region => region.Contains address) ∧
        after = regions.eraseP fun region => region.Contains address
    | regions, _, _, after => after = regions

inductive Reached (allowed : UInt64 × UInt32 → Prop) :
    List (Memlog width) → List (Region width) → Prop where
  | start : Reached allowed [] []
  | add {logs logs' regions regions' args status} (before : Reached allowed logs regions)
      (asked : allowed args)
      (ran : (memlogAdd logs args).Runs (kernel width) regions (status, logs') regions') :
      Reached allowed logs' regions'
  | rm {logs logs' regions regions' arg status} (before : Reached allowed logs regions)
      (ran : (memlogRm logs arg).Runs (kernel width) regions (status, logs') regions') :
      Reached allowed logs' regions'

end Trusty.Monitor
