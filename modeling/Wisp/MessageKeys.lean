import Mathlib.Data.List.Basic

/-! Strings are byte sequences, as the wire sees them. The reserved handler keys, the
origin scope of a subscription and the message header that routing reads. -/
namespace Wisp

abbrev Str := List UInt8

def str (text : String) : Str := text.toList.map fun c => UInt8.ofNat c.toNat

/-- Where a message a subscriber wants may come from; a bitmask on the wire. -/
inductive Origin where
  | «local»
  | mesh
  | any
  deriving DecidableEq, Repr

def Origin.bits : Origin → UInt8
  | .local => 1
  | .mesh => 2
  | .any => 3

def Origin.ofBits (bits : UInt8) : Origin :=
  if bits = 1 then .local else if bits = 2 then .mesh else .any

def scopeAccepts (scope : Origin) (isLocal : Bool) : Bool :=
  scope.bits &&& (if isLocal then Origin.local else Origin.mesh).bits != 0

@[simp] theorem scopeAccepts_any (isLocal : Bool) : scopeAccepts .any isLocal = true := by
  cases isLocal <;> decide

@[simp] theorem scopeAccepts_local (isLocal : Bool) : scopeAccepts .local isLocal = isLocal := by
  cases isLocal <;> decide

@[simp] theorem scopeAccepts_mesh (isLocal : Bool) : scopeAccepts .mesh isLocal = !isLocal := by
  cases isLocal <;> decide

def encodeSubscribeScope (scope : Origin) : Str :=
  if scope = .any then [] else [scope.bits]

/-- Only the first byte is read; an absent or unrecognized one widens to both. -/
def decodeSubscribeScope (payload : Str) : Origin :=
  match payload with
  | [] => .any
  | first :: _ =>
    let bits := first &&& Origin.any.bits
    if bits = 0 then .any else Origin.ofBits bits

theorem decode_encode_scope (scope : Origin) :
    decodeSubscribeScope (encodeSubscribeScope scope) = scope := by
  cases scope <;> decide

namespace Keys

def connect : Str := str "__CONNECT__"
def disconnect : Str := str "__DISCONNECT__"
def reset : Str := str "__RESET__"
def heartbeat : Str := str "__HEARTBEAT__"
def heartbeatAck : Str := str "__HEARTBEAT_ACK__"
def subscribe : Str := str "__SUBSCRIBE__"
def unsubscribe : Str := str "__UNSUBSCRIBE__"
def unlink : Str := str "__UNLINK__"
def setCluster : Str := str "__SET_CLUSTER__"
def wildcardTopic : Str := str "*"

def isReservedKey (key : Str) : Bool :=
  match key with
  | first :: second :: _ => first == 95 && second == 95
  | _ => false

def isSystemPacket (key : Str) : Bool :=
  key == heartbeat || key == heartbeatAck || key == connect || key == disconnect || key == reset

/-- What decides which queue a message goes through. -/
def isControlMessage (key : Str) : Bool :=
  isSystemPacket key || key == subscribe || key == unsubscribe || key == setCluster

end Keys

/-- The reserved namespace and the wildcard never enter an interest set. -/
def isPropagatableTopic (topic : Str) : Bool :=
  !topic.isEmpty && topic != Keys.wildcardTopic && !Keys.isReservedKey topic

theorem wildcard_not_propagatable : isPropagatableTopic Keys.wildcardTopic = false := by decide

theorem propagatable_ne_wildcard (propagatable : isPropagatableTopic topic = true) :
    topic ≠ Keys.wildcardTopic := by
  rintro rfl
  simp [wildcard_not_propagatable] at propagatable

def maxTopicLengthBytes : Nat := 512
def maxSubscriptionsPerClient : Nat := 10000

structure MessageHeader where
  handlerKey : Str
  senderId : Str := []
  topic : Str := []
  originBrokerId : Str := []
  messageUuid : Str := []
  replyTopic : Str := []
  deriving DecidableEq, Repr

structure Envelope where
  header : MessageHeader
  payload : Str := []
  deriving DecidableEq, Repr

namespace Wire

def makeControlHeader (handlerKey senderId topic : Str) : MessageHeader :=
  { handlerKey, senderId, topic }

def makeControl (handlerKey senderId topic : Str) : Envelope :=
  { header := makeControlHeader handlerKey senderId topic }

@[simp] theorem makeControl_key (handlerKey senderId topic : Str) :
    (makeControl handlerKey senderId topic).header.handlerKey = handlerKey := rfl

@[simp] theorem makeControl_topic (handlerKey senderId topic : Str) :
    (makeControl handlerKey senderId topic).header.topic = topic := rfl

@[simp] theorem makeControl_payload (handlerKey senderId topic : Str) :
    (makeControl handlerKey senderId topic).payload = [] := rfl

end Wire

end Wisp
