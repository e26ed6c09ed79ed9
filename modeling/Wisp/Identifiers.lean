import Wisp.ClientRequest
import Wisp.ConnectionApi
import Wisp.Utf8
import Wisp.WireFrame

/-! The identifiers a client makes up: the id it presents to the broker, and the topics it
asks to be answered on. The string fields of a header are texts in UTF-8, and a header that
breaks this is not parsed; both the id and the reply topic are cut at a byte, not at a
character, and the command line tool does not cut its reply topic at all. -/
namespace Wisp

open Utf8

/-- What one call of `generateUUID` draws: a hexadecimal digit for each place, and the
digit of the variant. -/
structure UuidDraws where
  digit : Nat → Fin 16
  variant : Fin 4

def hexChars : Str := str "0123456789abcdef"

def generateUUID (draws : UuidDraws) : Str :=
  (List.range 36).map fun place =>
    if place = 8 ∨ place = 13 ∨ place = 18 ∨ place = 23 then 45
    else if place = 14 then 52
    else if place = 19 then hexChars.getD (8 + draws.variant) 0
    else hexChars.getD (draws.digit place) 0

/-- ZeroMQ takes routing ids of 1 to 255 bytes. -/
def maxRoutingIdBytes : Nat := 255

/-- The id the constructor of `ConnectionManager` settles on. -/
def settleClientId (clientId uuid : Str) : Str :=
  if clientId.isEmpty then str "wisp-" ++ uuid.take 8
  else if clientId.length > maxRoutingIdBytes then clientId.take maxRoutingIdBytes
  else clientId

/-- The reply topic of `wisp-cli req`. -/
def requestReplyTopic (topic uuid : Str) : Str := topic ++ str "." ++ uuid

namespace Wire

/-- `message_uuid` alone is of type `bytes`. -/
def Textual (header : MessageHeader) : Prop :=
  Valid header.handlerKey ∧ Valid header.senderId ∧ Valid header.topic ∧ Valid header.originBrokerId ∧
    Valid header.replyTopic

instance (header : MessageHeader) : Decidable (Textual header) := inferInstanceAs (Decidable (_ ∧ _))

theorem textual_control_iff (key sender topic : Str) :
    Textual (makeControlHeader key sender topic) ↔ Valid key ∧ Valid sender ∧ Valid topic := by
  simp [Textual,makeControlHeader,valid_nil]

/-- A header frame as protobuf parses it, which takes no string field that is not a text. -/
def parseHeaderFrame (codec : HeaderCodec) (frame : Str) : Option MessageHeader :=
  (decodeHeaderFrame codec frame).filter fun header => decide (Textual header)

theorem parse_encodeHeader (codec : HeaderCodec) (header : MessageHeader) :
    parseHeaderFrame codec (encodeHeader codec header) = if Textual header then some header else none := by
  simp [parseHeaderFrame,Option.filter_some]

end Wire

structure UsableId (clientId : Str) : Prop where
  named : 1 ≤ clientId.length
  short : clientId.length ≤ maxRoutingIdBytes
  text : Valid clientId

/-- A topic a broker subscribes to and routes, and that keeps the uuid made for it. -/
structure UsableReply (uuid replyTopic : Str) : Prop where
  named : 1 ≤ replyTopic.length
  short : replyTopic.length ≤ maxTopicLengthBytes
  text : Valid replyTopic
  plain : Keys.isReservedKey replyTopic = false
  fresh : uuid <:+ replyTopic

section Uuid

variable (draws : UuidDraws)

theorem generateUUID_length : (generateUUID draws).length = 36 := by
  rw [generateUUID,List.length_map,List.length_range]

theorem hexChars_ascii (index : Nat) : hexChars.getD index 0 < 128 := by
  have ascii : hexChars.all (· < 128) = true := by decide
  rcases Nat.lt_or_ge index hexChars.length with within | past
  · rw [List.getD_eq_getElem _ _ within]
    exact of_decide_eq_true (List.all_eq_true.mp ascii _ (List.getElem_mem within))
  · rw [List.getD_eq_default _ _ past]
    decide

theorem generateUUID_ascii : (generateUUID draws).all (· < 128) = true := by
  apply List.all_eq_true.mpr
  intro byte member
  apply decide_eq_true
  obtain ⟨place,-,rfl⟩ := List.mem_map.mp member
  split
  · decide
  · split
    · decide
    · split
      · exact hexChars_ascii _
      · exact hexChars_ascii _

theorem generateUUID_take_ascii (count : Nat) : ((generateUUID draws).take count).all (· < 128) = true := by
  apply List.all_eq_true.mpr
  intro byte member
  exact List.all_eq_true.mp (generateUUID_ascii draws) byte (List.mem_of_mem_take member)

end Uuid

section Reserved

variable {topic : Str}

theorem isReservedKey_take (plain : Keys.isReservedKey topic = false) (count : Nat) :
    Keys.isReservedKey (topic.take count) = false := by
  rcases topic with _ | ⟨first,_ | ⟨second,rest⟩⟩
  · rw [List.take_nil]
    rfl
  · rcases count with _ | count
    · rfl
    · rw [List.take_of_length_le (Nat.le_add_left 1 count)]
      rfl
  · rcases count with _ | _ | count
    · rfl
    · rfl
    · exact plain

theorem isReservedKey_append_dot (plain : Keys.isReservedKey topic = false) (more : Str) :
    Keys.isReservedKey (topic ++ 46 :: more) = false := by
  rcases topic with _ | ⟨first,_ | ⟨second,rest⟩⟩
  · rcases more with _ | ⟨next,rest⟩ <;> rfl
  · simp [Keys.isReservedKey]
  · exact plain

end Reserved

variable (draws : UuidDraws) {clientId topic : Str}

/-- What the constructor makes of a text is an id, unless the cut splits a character. -/
theorem settleClientId_usable_iff (text : Valid clientId) :
    UsableId (settleClientId clientId (generateUUID draws)) ↔ Boundary clientId maxRoutingIdBytes := by
  unfold settleClientId
  cases clientId with
  | nil =>
    refine iff_of_true ⟨by simp [str],?_,?_⟩ (boundary_of_length_le (Nat.zero_le _))
    · simp [str,generateUUID_length,maxRoutingIdBytes]
    · exact (valid_ascii (by decide)).append (valid_ascii (generateUUID_take_ascii draws 8))
  | cons first rest =>
    rw [List.isEmpty_cons,if_neg Bool.false_ne_true]
    split
    next long =>
      have length : ((first :: rest).take maxRoutingIdBytes).length = maxRoutingIdBytes :=
        List.length_take_of_le (Nat.le_of_lt long)
      rw [← text.take_iff]
      exact ⟨UsableId.text,fun kept => ⟨by rw [length]; decide,Nat.le_of_eq length,kept⟩⟩
    next short =>
      have fits := Nat.le_of_not_lt short
      exact iff_of_true ⟨by simp,fits,text⟩ (boundary_of_length_le fits)

theorem dotted_valid_iff (front : Str) :
    Valid (front ++ (str "." ++ generateUUID draws)) ↔ Valid front :=
  valid_append_iff (by decide) ((valid_singleton (by decide)).append (valid_ascii (generateUUID_ascii draws)))

/-- A uuid behind a topic makes a usable reply topic just if there is room for it. -/
theorem dotted_usable_iff {front : Str} (plain : Keys.isReservedKey front = false) :
    UsableReply (generateUUID draws) (front ++ (str "." ++ generateUUID draws)) ↔
      front.length + 37 ≤ maxTopicLengthBytes ∧ Valid front := by
  have length : (front ++ (str "." ++ generateUUID draws)).length = front.length + 37 := by
    simp [str,generateUUID_length]
  have text := dotted_valid_iff draws front
  constructor
  · intro usable
    exact ⟨length ▸ usable.short,text.mp usable.text⟩
  · rintro ⟨short,valid⟩
    exact ⟨by omega,by omega,text.mpr valid,isReservedKey_append_dot plain _,
      (List.suffix_append (str ".") _).trans (List.suffix_append front _)⟩

theorem makeReplyTopic_eq (topic : Str) :
    Client.makeReplyTopic topic (generateUUID draws) = topic.take 475 ++ (str "." ++ generateUUID draws) := by
  have room : maxTopicLengthBytes - (str "." ++ generateUUID draws).length = 475 := by
    simp [str,generateUUID_length,maxTopicLengthBytes]
  rw [Client.makeReplyTopic,room]

theorem makeReplyTopic_usable_iff (text : Valid topic) (plain : Keys.isReservedKey topic = false) :
    UsableReply (generateUUID draws) (Client.makeReplyTopic topic (generateUUID draws)) ↔ Boundary topic 475 := by
  have short := List.length_take_le 475 topic
  rw [makeReplyTopic_eq,dotted_usable_iff draws (isReservedKey_take plain 475),text.take_iff]
  exact and_iff_right (Nat.add_le_add_right short 37)

theorem requestReplyTopic_usable_iff (text : Valid topic) (plain : Keys.isReservedKey topic = false) :
    UsableReply (generateUUID draws) (requestReplyTopic topic (generateUUID draws)) ↔ topic.length ≤ 475 := by
  rw [requestReplyTopic,List.append_assoc,dotted_usable_iff draws plain,and_iff_left text]
  exact Nat.add_le_add_iff_right (n := 37)

/-- A usable id subscribes to a usable topic at any broker that has room for it. -/
theorem usable_subscribes {uuid reply : Str} {b : Broker} (codec : HeaderCodec) (m : Moment)
    (usableId : UsableId clientId) (usable : UsableReply uuid reply)
    (room : (b.subscriptions.held clientId).card < maxSubscriptionsPerClient) :
    ∃ header, Wire.parseHeaderFrame codec
        (Wire.encodeHeader codec (Wire.makeControlHeader Keys.subscribe clientId reply)) = some header ∧
      (b.processMessage ⟨header,[]⟩ clientId false m).state.subscriptions.scopeOf clientId reply = some .any := by
  have key : Valid Keys.subscribe := valid_ascii (by decide)
  have textual := (Wire.textual_control_iff Keys.subscribe clientId reply).mpr ⟨key,usableId.text,usable.text⟩
  refine ⟨Wire.makeControlHeader Keys.subscribe clientId reply,?_,?_⟩
  · rw [Wire.parse_encodeHeader,if_pos textual]
  · apply Broker.subscribe_stores m rfl
    have named := usable.named
    have short := usable.short
    rintro (empty | long | ⟨-,full⟩)
    · simp [Wire.makeControlHeader] at empty
      simp [empty] at named
    · exact Nat.not_lt.mpr short long
    · exact Nat.not_le.mpr room full

/-- So many letters and an accented one, which takes two bytes. -/
def accented (letters : Nat) : Str := List.replicate letters 97 ++ [0xc3,0xa9]

theorem letters_valid (letters : Nat) : Valid (List.replicate letters 97) :=
  valid_ascii (by rw [List.all_replicate]; simp)

theorem accented_valid (letters : Nat) : Valid (accented letters) :=
  (letters_valid letters).append ⟨['é'],by rfl⟩

theorem accented_length (letters : Nat) : (accented letters).length = letters + 2 := by
  rw [accented,List.length_append,List.length_replicate]
  rfl

/-- For every draw the identifiers made of a text are usable, that is of a length and form the
wire takes, exactly if the client id has no character across byte 255, the request topic
none across byte 475 and the topic of `wisp-cli req` no more than 475 bytes; and usable ones
get through to a broker. -/
theorem identifiers_usable_iff (draws : UuidDraws) (clientId topic : Str) (idText : Valid clientId)
    (topicText : Valid topic) (plain : Keys.isReservedKey topic = false) :
    let uuid := generateUUID draws
    (UsableId (settleClientId clientId uuid) ↔ Boundary clientId 255) ∧
    (UsableReply uuid (Client.makeReplyTopic topic uuid) ↔ Boundary topic 475) ∧
    (UsableReply uuid (requestReplyTopic topic uuid) ↔ topic.length ≤ 475) ∧
    ∀ (codec : HeaderCodec) (b : Broker) (m : Moment) (sender reply : Str), UsableId sender → UsableReply uuid reply →
      (b.subscriptions.held sender).card < maxSubscriptionsPerClient →
      ∃ header, Wire.parseHeaderFrame codec
          (Wire.encodeHeader codec (Wire.makeControlHeader Keys.subscribe sender reply)) = some header ∧
        (b.processMessage ⟨header,[]⟩ sender false m).state.subscriptions.scopeOf sender reply = some .any :=
  ⟨settleClientId_usable_iff draws idText,makeReplyTopic_usable_iff draws topicText plain,
    requestReplyTopic_usable_iff draws topicText plain,
    fun codec _ m _ _ usableId usable room => usable_subscribes codec m usableId usable room⟩

/-- The accented letter ends at the byte the text is cut at. -/
theorem identifiers_usable_iff_accented :
    let uuid := generateUUID ⟨fun _ => 0,0⟩
    UsableId (settleClientId (accented 253 ++ accented 1) uuid) ∧
      UsableReply uuid (Client.makeReplyTopic (accented 473 ++ accented 1) uuid) ∧
      UsableReply uuid (requestReplyTopic (accented 473) uuid) := by
  have trimmed := identifiers_usable_iff ⟨fun _ => 0,0⟩ (accented 253 ++ accented 1) (accented 473 ++ accented 1)
    ((accented_valid 253).append (accented_valid 1)) ((accented_valid 473).append (accented_valid 1)) (by decide +kernel)
  have whole := identifiers_usable_iff ⟨fun _ => 0,0⟩ (accented 253) (accented 473) (accented_valid 253)
    (accented_valid 473) (by decide +kernel)
  exact ⟨trimmed.1.mpr (by decide +kernel),trimmed.2.1.mpr (by decide +kernel),
    whole.2.2.1.mpr (le_of_eq (accented_length 473))⟩

theorem accented_torn (letters : Nat) : ¬Valid ((accented letters).take (letters + 1)) := by
  have second : (accented letters)[letters + 1]? = some 0xa9 := by
    rw [accented,List.getElem?_append_right (by simp)]
    simp
  rw [(accented_valid letters).take_iff,Boundary,second]
  intro starts
  exact absurd (starts 0xa9 rfl) (by decide)

/-- An id of 254 letters and an accented one, a topic of 474 letters and an accented one, and a
topic of 476 letters: texts all three, of which the first two are cut inside a character and
make a header that is not parsed, and the third leaves a reply topic too long to subscribe to. -/
theorem identifiers_unusable :
    let uuid := generateUUID ⟨fun _ => 0,0⟩
    let long : Str := List.replicate 476 97
    let parse := fun sender reply => Wire.parseHeaderFrame .plain
      (Wire.encodeHeader .plain (Wire.makeControlHeader Keys.subscribe sender reply))
    (Valid (accented 254) ∧ parse (settleClientId (accented 254) uuid) (str "t") = none) ∧
    (Valid (accented 474) ∧ Keys.isReservedKey (accented 474) = false ∧
      (accented 474).length ≤ maxTopicLengthBytes ∧
      parse (str "c") (Client.makeReplyTopic (accented 474) uuid) = none) ∧
    Valid long ∧ Keys.isReservedKey long = false ∧ long.length ≤ maxTopicLengthBytes ∧
      (Broker.new [9] (str "c") none).Refuses (str "c") (requestReplyTopic long uuid) := by
  intro uuid long parse
  have length : long.length = 476 := List.length_replicate
  refine ⟨⟨accented_valid 254,?_⟩,⟨accented_valid 474,rfl,?_,?_⟩,letters_valid 476,rfl,?_,?_⟩
  · have settled : settleClientId (accented 254) uuid = (accented 254).take 255 := by
      rw [settleClientId,if_neg (by rw [List.isEmpty_iff_length_eq_zero,accented_length]; decide),
        if_pos (by rw [accented_length,maxRoutingIdBytes]; omega)]
      rfl
    dsimp only [parse]
    rw [Wire.parse_encodeHeader,if_neg]
    rw [Wire.textual_control_iff,settled]
    rintro ⟨-,sender,-⟩
    exact accented_torn 254 sender
  · rw [accented_length]
    decide
  · dsimp only [parse]
    rw [Wire.parse_encodeHeader,if_neg]
    rw [Wire.textual_control_iff,makeReplyTopic_eq,dotted_valid_iff]
    rintro ⟨-,-,reply⟩
    exact accented_torn 474 reply
  · rw [length]
    decide
  · refine .inr (.inl ?_)
    rw [requestReplyTopic,List.length_append,List.length_append,length,generateUUID_length]
    decide

end Wisp
