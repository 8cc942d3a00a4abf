import ChainNode.Archive.FileName
import ChainNode.Archive.Record
import ChainNode.Archive.Sample

/-!
# Building segments

A builder describes a segment: its range and format version, and for some heights a payload of its own
or a height that its record is framed as. Every other height gets the record of its sample block.
-/

namespace ChainNode.Archive

structure SegmentBuilder where
  version : Int32
  first : UInt32
  last : UInt32
  variableHeader : Bytes := Sample.asciiBytes "\x7b\"archiver\":\"test\"\x7d".toList
  /-- Payloads set for single heights, the latest first. -/
  payloads : List (UInt32 × Bytes) := []
  /-- Heights that records are framed as, the latest first. -/
  framed : List (UInt32 × Int32) := []
  name : Option String := none

namespace SegmentBuilder

def v1 (first last : UInt32) : SegmentBuilder := { version := 1, first, last }

def v2 (first last : UInt32) : SegmentBuilder := { version := 2, first, last }

/-- Changes the format version, also the one that default payloads are encoded for. -/
def withVersion (b : SegmentBuilder) (version : Int32) : SegmentBuilder := { b with version }

def withPayload (b : SegmentBuilder) (height : UInt32) (payload : Bytes) : SegmentBuilder :=
  { b with payloads := (height, payload) :: b.payloads }

def withFramedHeight (b : SegmentBuilder) (height : UInt32) (framedAs : Int32) : SegmentBuilder :=
  { b with framed := (height, framedAs) :: b.framed }

def withName (b : SegmentBuilder) (name : String) : SegmentBuilder := { b with name := some name }

def fileName (b : SegmentBuilder) : String :=
  b.name.getD (SegmentEntry.defaultName b.first b.last)

def defaultPayload (b : SegmentBuilder) (height : UInt32) : Bytes :=
  if b.version = 2 then RecordV2.encode (Sample.blockV2 height)
  else RecordV1.encode (Sample.blockV1 height)

def payload (b : SegmentBuilder) (height : UInt32) : Bytes :=
  (b.payloads.lookup height).getD (b.defaultPayload height)

def framedHeight (b : SegmentBuilder) (height : UInt32) : Int32 :=
  (b.framed.lookup height).getD height.toInt32

def heights (b : SegmentBuilder) : List UInt32 :=
  (List.range (b.last.toNat + 1 - b.first.toNat)).map fun i => b.first + UInt32.ofNat i

/-- A record with its height and its length before it. -/
def frame (b : SegmentBuilder) (height : UInt32) : Bytes :=
  BigEndian.ofInt32 (b.framedHeight height) ++ BigEndian.encode 4 (b.payload height).length ++
    b.payload height

/-- Where each frame starts when the first one starts at `start`. -/
def offsets (start : Nat) : List Bytes → List Nat
  | [] => []
  | f :: fs => start :: offsets (start + f.length) fs

def header (b : SegmentBuilder) : Bytes :=
  BigEndian.ofInt32 b.version ++ BigEndian.ofUInt32 b.first ++ BigEndian.ofUInt32 b.last ++
    BigEndian.ofUInt32 (b.last - b.first + 1) ++ BigEndian.encode 4 b.variableHeader.length ++
    b.variableHeader ++ BigEndian.encode 4 0

def build (b : SegmentBuilder) : Bytes :=
  let frames := b.heights.map b.frame
  b.header ++ (offsets 0 frames).flatMap (BigEndian.encode 4) ++ frames.flatten

end SegmentBuilder
end ChainNode.Archive
