import Trusty.Lib.LittleEndian

/-!
# Key parameters

`keymaster_defs.h`: tags with their types, and the parameters of a key.
-/

namespace Trusty.Keymaster

/-- `keymaster_tag_type_t`. The last four bits of a tag can also say something
that is no type. -/
inductive TagType where
  | invalid
  | enum
  | enumRep
  | uint
  | uintRep
  | ulong
  | date
  | bool
  | bignum
  | bytes
  | ulongRep
  | unknown
  deriving DecidableEq, Repr

abbrev Tag := UInt32

def Tag.type (tag : Tag) : TagType :=
  match (tag >>> 28).toNat with
  | 0 => .invalid
  | 1 => .enum
  | 2 => .enumRep
  | 3 => .uint
  | 4 => .uintRep
  | 5 => .ulong
  | 6 => .date
  | 7 => .bool
  | 8 => .bignum
  | 9 => .bytes
  | 10 => .ulongRep
  | _ => .unknown

def Tag.isBlob (tag : Tag) : Bool := tag.type == .bytes || tag.type == .bignum

namespace Tag

def invalid : Tag := 0x00000000
def purpose : Tag := 0x20000001
def algorithm : Tag := 0x10000002
def keySize : Tag := 0x30000003
def blockMode : Tag := 0x20000004
def digest : Tag := 0x20000005
def padding : Tag := 0x20000006
def callerNonce : Tag := 0x70000007
def minMacLength : Tag := 0x30000008
def kdf : Tag := 0x20000009
def ecCurve : Tag := 0x1000000A
def rsaPublicExponent : Tag := 0x500000C8
def eciesSingleHashMode : Tag := 0x700000C9
def includeUniqueId : Tag := 0x700000CA
def blobUsageRequirements : Tag := 0x1000012D
def bootloaderOnly : Tag := 0x7000012E
def activeDatetime : Tag := 0x60000190
def originationExpireDatetime : Tag := 0x60000191
def usageExpireDatetime : Tag := 0x60000192
def minSecondsBetweenOps : Tag := 0x30000193
def maxUsesPerBoot : Tag := 0x30000194
def allUsers : Tag := 0x700001F4
def userId : Tag := 0x300001F5
def userSecureId : Tag := 0xA00001F6
def noAuthRequired : Tag := 0x700001F7
def userAuthType : Tag := 0x100001F8
def authTimeout : Tag := 0x300001F9
def applicationId : Tag := 0x90000259
def exportable : Tag := 0x7000025A
def applicationData : Tag := 0x900002BC
def creationDatetime : Tag := 0x600002BD
def origin : Tag := 0x100002BE
def rootOfTrust : Tag := 0x900002C0
def osVersion : Tag := 0x300002C1
def osPatchlevel : Tag := 0x300002C2
def uniqueId : Tag := 0x900002C3
def associatedData : Tag := 0x900003E8
def nonce : Tag := 0x900003E9
def authToken : Tag := 0x900003EA
def macLength : Tag := 0x300003EB

end Tag

/-- `keymaster_key_param_t`. The union holds a number or a blob, and the type of
the tag says which. How a blob is held differs, so it is a parameter. -/
structure Param (Blob : Type) where
  tag : Tag
  word : UInt64
  blob : Blob
  deriving DecidableEq, Repr

namespace Param

variable {Blob : Type}

/-- The member `integer` of the union, and `enumerated`. -/
def integer (param : Param Blob) : UInt32 := param.word.toUInt32

/-- The member `long_integer`, and `date_time`. -/
def longInteger (param : Param Blob) : UInt64 := param.word

/-- The member `boolean`. -/
def boolean (param : Param Blob) : Bool := param.word.toUInt8 != 0

end Param

abbrev KeyParam := Param (List UInt8)

/-- The entries of an `AuthorizationSet`, as a reader sees them. A set that is
not valid has none. -/
abbrev AuthList := List KeyParam

def AuthList.at (set : AuthList) (index : Nat) : KeyParam := set[index]?.getD ⟨Tag.invalid, 0, []⟩

/-- `find`, and with it `GetTagValue`: the first entry with the tag. -/
def AuthList.find (set : AuthList) (tag : Tag) : Option KeyParam := List.find? (·.tag == tag) set

def AuthList.containsEnumValue (set : AuthList) (tag : Tag) (value : UInt32) : Bool :=
  List.any set fun entry => entry.tag == tag && entry.integer == value

/-- Parameters that carry a number, as `keymaster_param_int` and the like make
them. -/
def KeyParam.number (tag : Tag) (value : UInt64) : KeyParam := ⟨tag, value, []⟩

/-- `keymaster_param_blob`. -/
def KeyParam.bytes (tag : Tag) (value : List UInt8) : KeyParam := ⟨tag, 0, value⟩

/-- `keymaster_error_t`, as far as it is used here. -/
inductive KeymasterError where
  | ok
  | unsupportedPurpose
  | incompatiblePurpose
  | unsupportedAlgorithm
  | keyNotYetValid
  | keyExpired
  | keyUserNotAuthenticated
  | invalidOperationHandle
  | tooManyOperations
  | invalidKeyBlob
  | invalidArgument
  | memoryAllocationFailed
  | keyRateLimitExceeded
  | callerNonceProhibited
  | keyMaxOpsExceeded
  | unknownError
  deriving DecidableEq, Repr

/-- `keymaster_purpose_t`. A request can hold any number. -/
abbrev Purpose := UInt32

namespace Purpose

def encrypt : Purpose := 0
def decrypt : Purpose := 1
def sign : Purpose := 2
def verify : Purpose := 3

end Purpose

def algorithmRsa : UInt32 := 1

def algorithmEc : UInt32 := 3

def algorithmAes : UInt32 := 32

end Trusty.Keymaster
