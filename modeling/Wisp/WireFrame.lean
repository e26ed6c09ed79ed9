import Wisp.MessageKeys

/-! The header frame: a format byte and what the codec of that format makes of the
header. The only registered format is protobuf, of which no more is used than that its
parsing inverts its serialization. -/
namespace Wisp

structure HeaderCodec where
  encode : MessageHeader → Str
  decode : Str → Option MessageHeader
  inverts : ∀ header, decode (encode header) = some header

namespace Wire

/-- `Format::Protobuf`. -/
def protobufFormat : UInt8 := 1

/-- The codec of a format byte, if it has one. -/
def codecFor (codec : HeaderCodec) (format : UInt8) : Option HeaderCodec :=
  if format = protobufFormat then some codec else none

def encodeHeader (codec : HeaderCodec) (header : MessageHeader) : Str := protobufFormat :: codec.encode header

def decodeHeaderFrame (codec : HeaderCodec) : Str → Option MessageHeader
  | [] => none
  | format :: bytes => (codecFor codec format).bind fun codec => codec.decode bytes

@[simp] theorem decode_encodeHeader (codec : HeaderCodec) (header : MessageHeader) :
    decodeHeaderFrame codec (encodeHeader codec header) = some header := by
  simp [decodeHeaderFrame,encodeHeader,codecFor,codec.inverts]

end Wire

/-- A field behind its length in unary. -/
def lengthPrefixed (bytes : Str) : Str := List.replicate bytes.length 1 ++ 0 :: bytes

def readLengthPrefixed (bytes : Str) : Str × Str :=
  let count := (bytes.takeWhile (· == 1)).length
  ((bytes.drop (count + 1)).take count,(bytes.drop (count + 1)).drop count)

theorem read_lengthPrefixed (bytes rest : Str) : readLengthPrefixed (lengthPrefixed bytes ++ rest) = (bytes,rest) := by
  have marks : (lengthPrefixed bytes ++ rest).takeWhile (· == 1) = List.replicate bytes.length 1 := by
    rw [lengthPrefixed,List.append_assoc,List.takeWhile_append_of_pos (by simp),List.cons_append,
      List.takeWhile_cons_of_neg (by simp),List.append_nil]
  have body : (lengthPrefixed bytes ++ rest).drop (bytes.length + 1) = bytes ++ rest := by
    rw [lengthPrefixed,List.append_assoc,← List.drop_drop,List.drop_left' (List.length_replicate ..)]
    rfl
  simp [readLengthPrefixed,marks,body]

/-- A codec the frames work with. -/
def HeaderCodec.plain : HeaderCodec where
  encode header := lengthPrefixed header.handlerKey ++ (lengthPrefixed header.senderId ++
    (lengthPrefixed header.topic ++ (lengthPrefixed header.originBrokerId ++
      (lengthPrefixed header.messageUuid ++ (lengthPrefixed header.replyTopic ++ [])))))
  decode bytes :=
    let (handlerKey,bytes) := readLengthPrefixed bytes
    let (senderId,bytes) := readLengthPrefixed bytes
    let (topic,bytes) := readLengthPrefixed bytes
    let (originBrokerId,bytes) := readLengthPrefixed bytes
    let (messageUuid,bytes) := readLengthPrefixed bytes
    let (replyTopic,_) := readLengthPrefixed bytes
    some { handlerKey, senderId, topic, originBrokerId, messageUuid, replyTopic }
  inverts header := by simp only [read_lengthPrefixed]

end Wisp
