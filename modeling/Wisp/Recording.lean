import Wisp.LittleEndian
import Wisp.WireFrame

/-! Capture files. Behind a mark stand the records one after another: each its offset, the
lengths of its two frames, and the frames as they travelled. -/
namespace Wisp

open LittleEndian

def maxMessageSizeBytes : Nat := 16 * 1024 * 1024

namespace Recording

def magic : Str := str "WISPREC1"

structure Record where
  envelope : Envelope
  offsetMicros : Int
  deriving DecidableEq, Repr

/-- Why the rest of a capture is not read. -/
inductive Fault where
  | midRecord
  | implausibleSize
  | insideHeader
  | insidePayload
  | undecodableHeader
  deriving DecidableEq, Repr

def Fault.text : Fault → String
  | .midRecord => "capture ends mid-record (truncated while being written?)"
  | .implausibleSize => "capture holds an implausible record size (corrupt file?)"
  | .insideHeader => "capture ends inside a message header"
  | .insidePayload => "capture ends inside a message payload"
  | .undecodableHeader => "capture holds a message header this build cannot decode"

end Recording

open Recording

/-- What is left of the file once its mark is read; without the mark it is no capture. -/
def RecordReader.openFile (file : Str) : Option Str :=
  if file.take 8 = magic then some (file.drop 8) else none

/-- What one read finds at the reader's place in the file. -/
inductive RecordReader.Result where
  | clean
  | fault (fault : Fault)
  | record (record : Record) (rest : Str)

def RecordReader.read (codec : HeaderCodec) (file : Str) : Result :=
  let fixed := file.take 16
  if fixed.length = 0 then .clean
  else if fixed.length ≠ 16 then .fault .midRecord
  else
    let offsetMicros := Int.bmod (valueOf (fixed.take 8)) (2 ^ 64)
    let headerLength := valueOf ((fixed.drop 8).take 4)
    let payloadLength := valueOf (fixed.drop 12)
    if headerLength = 0 ∨ headerLength > maxMessageSizeBytes ∨ payloadLength > maxMessageSizeBytes then
      .fault .implausibleSize
    else
      let frames := file.drop 16
      let headerFrame := frames.take headerLength
      if headerFrame.length ≠ headerLength then .fault .insideHeader
      else
        let payload := (frames.drop headerLength).take payloadLength
        if payload.length ≠ payloadLength then .fault .insidePayload
        else
          match Wire.decodeHeaderFrame codec headerFrame with
          | none => .fault .undecodableHeader
          | some header => .record ⟨⟨header,payload⟩,offsetMicros⟩ ((frames.drop headerLength).drop payloadLength)

/-- The bytes of one record; a length is cut to 32 bits and an offset to 64. -/
def RecordWriter.write (codec : HeaderCodec) (record : Record) : Str :=
  let headerFrame := Wire.encodeHeader codec record.envelope.header
  bytesOf 8 (record.offsetMicros % 2 ^ 64).toNat ++
    (bytesOf 4 headerFrame.length ++
      (bytesOf 4 record.envelope.payload.length ++ (headerFrame ++ record.envelope.payload)))

namespace Recording

/-- The records that a reader finds from a place in the file on, and why it stops. -/
inductive Reads (codec : HeaderCodec) : Str → List Record → Option Fault → Prop
  | clean {file : Str} (read : RecordReader.read codec file = .clean) : Reads codec file [] none
  | fault {file : Str} {fault : Fault} (read : RecordReader.read codec file = .fault fault) :
      Reads codec file [] (some fault)
  | record {file rest : Str} {record : Record} {records : List Record} {fault : Option Fault}
      (read : RecordReader.read codec file = .record record rest) (later : Reads codec rest records fault) :
      Reads codec file (record :: records) fault

/-- A file that is read as some records to its clean end. -/
def Captures (codec : HeaderCodec) (file : Str) (records : List Record) : Prop :=
  ∃ rest, RecordReader.openFile file = some rest ∧ Reads codec rest records none

/-- The frames are within what the transport takes, and the offset is one of 64 bits. -/
structure Fits (codec : HeaderCodec) (record : Record) : Prop where
  header : (Wire.encodeHeader codec record.envelope.header).length ≤ maxMessageSizeBytes
  payload : record.envelope.payload.length ≤ maxMessageSizeBytes
  least : -2 ^ 63 ≤ record.offsetMicros
  most : record.offsetMicros < 2 ^ 63

theorem valueOf_length {length : Nat} (fits : length ≤ maxMessageSizeBytes) : valueOf (bytesOf 4 length) = length := by
  have small : length < 256 ^ 4 := lt_of_le_of_lt fits (by decide)
  rw [valueOf_bytesOf,Nat.mod_eq_of_lt small]

theorem bmod_valueOf_offset {offset : Int} (least : -2 ^ 63 ≤ offset) (most : offset < 2 ^ 63) :
    Int.bmod (valueOf (bytesOf 8 (offset % 2 ^ 64).toNat)) (2 ^ 64) = offset := by
  have value : (valueOf (bytesOf 8 (offset % 2 ^ 64).toNat) : Int) = offset % 2 ^ 64 := by
    rw [valueOf_bytesOf]
    omega
  have cut : Int.bmod (offset % 2 ^ 64) (2 ^ 64) = Int.bmod offset (2 ^ 64) := by
    exact_mod_cast Int.emod_bmod offset (2 ^ 64)
  rw [value,cut]
  apply Int.bmod_eq_of_le
  · omega
  · omega

/-- The part of a record that stands before its frames. -/
def fixedPart (codec : HeaderCodec) (record : Record) : Str :=
  bytesOf 8 (record.offsetMicros % 2 ^ 64).toNat ++
    (bytesOf 4 (Wire.encodeHeader codec record.envelope.header).length ++ bytesOf 4 record.envelope.payload.length)

@[simp] theorem fixedPart_length (codec : HeaderCodec) (record : Record) : (fixedPart codec record).length = 16 := by
  simp [fixedPart]

theorem write_eq (codec : HeaderCodec) (record : Record) : RecordWriter.write codec record =
    fixedPart codec record ++ (Wire.encodeHeader codec record.envelope.header ++ record.envelope.payload) := by
  simp [RecordWriter.write,fixedPart]

/-- Behind the fixed part of a record only its frames decide. -/
theorem Fits.read_fixed {codec : HeaderCodec} {record : Record} (fits : Fits codec record) (frames : Str) :
    RecordReader.read codec (fixedPart codec record ++ frames) =
      let headerLength := (Wire.encodeHeader codec record.envelope.header).length
      let payloadLength := record.envelope.payload.length
      if (frames.take headerLength).length ≠ headerLength then .fault .insideHeader
      else if ((frames.drop headerLength).take payloadLength).length ≠ payloadLength then .fault .insidePayload
      else
        match Wire.decodeHeaderFrame codec (frames.take headerLength) with
        | none => .fault .undecodableHeader
        | some header => .record ⟨⟨header,(frames.drop headerLength).take payloadLength⟩,record.offsetMicros⟩
            ((frames.drop headerLength).drop payloadLength) := by
  have nonempty : (Wire.encodeHeader codec record.envelope.header).length ≠ 0 := by simp [Wire.encodeHeader]
  have headerFits := fits.header
  have payloadFits := fits.payload
  have fixed : (fixedPart codec record ++ frames).take 16 = fixedPart codec record :=
    List.take_left' (fixedPart_length codec record)
  have behind : (fixedPart codec record ++ frames).drop 16 = frames := List.drop_left' (fixedPart_length codec record)
  have offset : (fixedPart codec record).take 8 = bytesOf 8 (record.offsetMicros % 2 ^ 64).toNat :=
    List.take_left' (bytesOf_length _ _)
  have sizes : (fixedPart codec record).drop 8 = bytesOf 4 (Wire.encodeHeader codec record.envelope.header).length ++
      bytesOf 4 record.envelope.payload.length := List.drop_left' (bytesOf_length _ _)
  have second : (fixedPart codec record).drop 12 = bytesOf 4 record.envelope.payload.length := by
    rw [fixedPart,← List.append_assoc]
    exact List.drop_left' (by simp)
  have allowed : ¬((Wire.encodeHeader codec record.envelope.header).length = 0 ∨
      (Wire.encodeHeader codec record.envelope.header).length > maxMessageSizeBytes ∨
        record.envelope.payload.length > maxMessageSizeBytes) := by omega
  unfold RecordReader.read
  simp only [fixed,behind,fixedPart_length,offset,sizes,second,List.take_left' (bytesOf_length _ _),
    valueOf_length headerFits,valueOf_length payloadFits,bmod_valueOf_offset fits.least fits.most]
  rw [if_neg (by decide),if_neg (by decide),if_neg allowed]

theorem Fits.read_write {codec : HeaderCodec} {record : Record} (fits : Fits codec record) (rest : Str) :
    RecordReader.read codec (RecordWriter.write codec record ++ rest) = .record record rest := by
  have decoded := Wire.decode_encodeHeader codec record.envelope.header
  rw [write_eq,List.append_assoc,List.append_assoc,fits.read_fixed]
  simp only [List.take_left,List.drop_left,decoded]
  simp

/-- A capture is read back as it was written. -/
theorem captures_written {codec : HeaderCodec} {records : List Record} (fit : ∀ record ∈ records, Fits codec record) :
    Captures codec (magic ++ records.flatMap (RecordWriter.write codec)) records := by
  refine ⟨records.flatMap (RecordWriter.write codec),rfl,?_⟩
  induction records with
  | nil => exact .clean rfl
  | cons record rest ih =>
    rw [List.forall_mem_cons] at fit
    rw [List.flatMap_cons]
    exact .record (fit.1.read_write _) (ih fit.2)

end Recording

end Wisp
