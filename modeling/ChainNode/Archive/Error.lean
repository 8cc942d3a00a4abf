import ChainNode.RepositoryError

/-!
# Archive errors

Every way in which reading the archive fails, as a cause. `ArchiveError.message` is the one place that
puts them into words.
-/

namespace ChainNode.Archive

/-- What was being read when the data ended. -/
inductive Field
  | formatVersion
  | startHeight
  | endHeight
  | blockCount
  | variableHeaderLength
  | reservedLength
  | indexEntry
  | recordHeight
  | recordLength
  | recordPayload
  | blockHeight
  | blockTimestamp
  | blockReference
  | minterPublicKey
  | blockSignature
  | transactions
  | atStates
deriving DecidableEq

def Field.label : Field → String
  | .formatVersion => "format version"
  | .startHeight => "start height"
  | .endHeight => "end height"
  | .blockCount => "block count"
  | .variableHeaderLength => "variable header length"
  | .reservedLength => "reserved length"
  | .indexEntry => "index entry"
  | .recordHeight => "record height"
  | .recordLength => "record length"
  | .recordPayload => "record payload"
  | .blockHeight => "block height"
  | .blockTimestamp => "block timestamp"
  | .blockReference => "block reference"
  | .minterPublicKey => "minter public key"
  | .blockSignature => "block signature"
  | .transactions => "transactions"
  | .atStates => "AT states"

/-- The numbers of a segment that must not be negative. -/
inductive Quantity
  | variableHeaderLength
  | recordOffset
  | recordLength
deriving DecidableEq

def Quantity.label : Quantity → String
  | .variableHeaderLength => "variable header length"
  | .recordOffset => "record offset"
  | .recordLength => "record length"

/-- Data that is there but makes no sense. The last four are faults of version 2 records. -/
inductive DecodeFault
  | negativeQuantity (quantity : Quantity) (value : Int32)
  | negativeHeight (value : Int32)
  | negativeTimestamp (value : Int64)
  | negativeLength (value : Int32) (field : Field)
  | trailingBytes (count : Nat)
  | endOfRecord
  | bytesCutOff
  | signatureLength (length : Nat)
  | bytesRemaining
deriving DecidableEq

def DecodeFault.message : DecodeFault → String
  | .negativeQuantity quantity value => s!"negative {quantity.label}: {value.toInt}"
  | .negativeHeight value => s!"negative block height {value.toInt}"
  | .negativeTimestamp value => s!"negative timestamp {value.toInt}"
  | .negativeLength value field => s!"negative length {value.toInt} in {field.label}"
  | .trailingBytes count => s!"{count} trailing bytes after v1 record"
  | .endOfRecord => "io error: unexpected end of file"
  | .bytesCutOff => "io error: "
  | .signatureLength length => s!"invalid length {length}, expected an byte array of size 64"
  | .bytesRemaining => "Slice had bytes remaining after deserialization"

inductive ArchiveError
  /-- The directory could not be listed, or a segment could not be opened or read. -/
  | io
  | unsupportedVersion (version : Int32)
  | heightOutOfRange (height : UInt32) (first last : Int32)
  | heightMismatch (expected : UInt32) (found : Int)
  | truncated (field : Field)
  | decode (fault : DecodeFault)
  | index (error : RepositoryError)
deriving DecidableEq

/-- The wording of an error, except of an I/O error: that is the operating system's. -/
def ArchiveError.message? : ArchiveError → Option String
  | .io => none
  | .unsupportedVersion version => some s!"Unsupported archive format version {version.toInt}"
  | .heightOutOfRange height first last =>
    some s!"Height {height.toNat} outside segment range {first.toInt}-{last.toInt}"
  | .heightMismatch expected found =>
    some s!"Expected block at height {expected.toNat}, found height {found}"
  | .truncated field => some s!"Truncated archive data while reading {field.label}"
  | .decode fault => some ("Archive decode error: " ++ fault.message)
  | .index error => some ("Archive index error: " ++ error.message)

end ChainNode.Archive
