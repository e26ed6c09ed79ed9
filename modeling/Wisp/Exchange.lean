import Mathlib.Logic.Function.Basic
import Wisp.ClientRequest
import Wisp.Delivery
import Wisp.Dispatch
import Wisp.Stats

/-! Requests and their answers, between any number of clients. What the queues, the links and
the order of the brokers' work make of a message is left open: whatever was sent may reach any
broker, in any state, any number of times or never, and whatever a broker sent may reach any
client. -/
namespace Wisp

open Transition ListTable

/-- What a stored callback does: it calls a function of the application, or it hands what
it got to the promise of a `sendRequest`. -/
inductive Reaction (α : Type) where
  | app (func : α)
  | fulfil (promise : Nat)
  deriving DecidableEq, Repr

namespace Reaction

variable {α : Type}

def promise? : Reaction α → Option Nat
  | .app _ => none
  | .fulfil promise => some promise

def func? : Reaction α → Option α
  | .app func => some func
  | .fulfil _ => none

end Reaction

/-- The application's own registration behind an entry, if it is one. -/
def Callback.app? {α : Type} (entry : Callback (Reaction α)) : Option (Callback α) :=
  match entry.func with
  | none => some ⟨entry.owner,none,entry.scope⟩
  | some (.app func) => some ⟨entry.owner,some func,entry.scope⟩
  | some (.fulfil _) => none

def Callback.promise? {α : Type} (entry : Callback (Reaction α)) : Option Nat := entry.func.bind Reaction.promise?

namespace Party

/-- Where a call of `sendRequest` stands, once its callback is registered. -/
inductive Stage where
  | registered
  | waiting
  | refused
  | answered (response : Str)
  | expired
  deriving DecidableEq, Repr

/-- What the call returns, once it is about to. -/
def Stage.result? : Stage → Option (Option Str)
  | .registered | .waiting => none
  | .refused | .expired => some none
  | .answered response => some (some response)

structure Request where
  envelope : Envelope
  stage : Stage := .registered
  /-- What the promise was given. -/
  promise : Option Str := none
  deriving DecidableEq, Repr

def Request.replyTopic (request : Request) : Str := request.envelope.header.replyTopic

/-- One turn of the processing thread: the message that `t_currentReplyTopic` is set for,
the application's function that runs, and what the snapshots still have to call. -/
structure Handling (α : Type) where
  message : Envelope
  calling : Option α := none
  rest : List (Invocation (Reaction α))

end Party

/-- A client; its calls of `sendRequest` in progress are kept under the address of their promise. -/
structure Party (α : Type) where
  dispatcher : Dispatcher (Reaction α)
  handling : Option (Party.Handling α) := none
  requests : AList fun _ : Nat => Party.Request := ∅

namespace Party

variable {α : Type}

/-- `accepted` is what the queue says to a message; `inside` tells a call made on the
processing thread, by a callback, from one made on any other. -/
inductive Label (α : Type) where
  | register (key : Str) (func : Option α) (owner : Nat) (scope : Origin)
  | unregister (key : Str) (owner : Nat)
  | status (connected : Bool)
  | sendMessage (key payload : Str) (accepted : Bool)
  | sendWithReply (key payload replyTopic : Str) (accepted : Bool)
  | ask (inside : Bool) (requestTopic payload uuid : Str) (owner : Nat)
  | write (owner : Nat) (accepted : Bool)
  | wait (owner : Nat)
  | leave (owner : Nat)
  | handle (message : Envelope) (brokerId : Option Str)
  | invoke
  | reply (inside : Bool) (payload : Str) (accepted : Bool)

inductive Event (α : Type) where
  | registered (key : Str) (entry : Callback α)
  | unregistered (key : Str) (owner : Nat)
  | control (env : Envelope)
  | published (env : Envelope)
  | asked (request : Envelope)
  | barred
  | requested (request : Envelope)
  | replied (message reply : Envelope)
  | returned (request : Envelope) (response : Option Str)
  deriving DecidableEq, Repr

/-- What the event put on the way to the broker. -/
def Event.sent : Event α → Option Envelope
  | .control env | .published env | .requested env | .replied _ env => some env
  | .registered _ _ | .unregistered _ _ | .asked _ | .barred | .returned _ _ => none

def sendDataInternal (key payload clientId : Str) : Envelope :=
  { header := { handlerKey := key, senderId := clientId, topic := key }, payload }

/-- `none` where the reply could never arrive. -/
def sendEncodedWithReply (key payload replyTopic clientId : Str) : Option Envelope :=
  if replyTopic.isEmpty then none
  else if Keys.isReservedKey replyTopic then none
  else if replyTopic.length > maxTopicLengthBytes then none
  else some { header := { handlerKey := key, senderId := clientId, topic := key, replyTopic }, payload }

/-- `none` outside of a request. -/
def sendReplyEnvelope (currentReplyTopic payload clientId : Str) : Option Envelope :=
  if currentReplyTopic.isEmpty then none
  else some { header := { handlerKey := currentReplyTopic, senderId := clientId, topic := currentReplyTopic }, payload }

/-- `t_currentReplyTopic` is the thread's own. -/
def currentReplyTopic (inside : Bool) (h : Handling α) : Str := if inside then h.message.header.replyTopic else []

def locked (next : Dispatcher (Reaction α) × List Envelope) (p : Party α) : Outcome (Party α) (Event α) :=
  ⟨{ p with dispatcher := next.1 },next.2.map .control⟩

/-- No object that lives has this address: not a promise, which the snapshots keep alive too,
and not an instance that callbacks are registered for. -/
def addressFree (owner : Nat) (p : Party α) : Bool :=
  decide (owner ∉ p.requests) && (stored p.dispatcher.handlers).all (·.owner != owner) &&
    (p.handling.elim [] Handling.rest).all (·.func.promise? != some owner)

/-- `set_value` throws once the promise has its value, and the callback swallows that. -/
def fulfil (promise : Nat) (data : Str) (requests : AList fun _ : Nat => Request) : AList fun _ : Nat => Request :=
  match requests.lookup promise with
  | none => requests
  | some request => requests.insert promise { request with promise := request.promise.or (some data) }

def act : Label α → Party α → Outcome (Party α) (Event α)
  | .register key func owner scope, p =>
    if owner ∉ p.requests then
      (⟨p,[.registered key ⟨owner,func,scope⟩]⟩ : Outcome _ _).andThen
        (locked (p.dispatcher.performRegistration key (func.map .app) owner scope))
    else ⟨p,[]⟩
  | .unregister key owner, p =>
    if owner ∉ p.requests then
      match p.dispatcher.performUnregistration key owner with
      | some next => (⟨p,[.unregistered key owner]⟩ : Outcome _ _).andThen (locked next)
      | none => ⟨p,[]⟩
    else ⟨p,[]⟩
  | .status connected, p => p.locked (p.dispatcher.statusHandler connected)
  | .sendMessage key payload accepted, p =>
    ⟨p,if accepted then [.published (sendDataInternal key payload p.dispatcher.clientId)] else []⟩
  | .sendWithReply key payload replyTopic accepted, p =>
    match sendEncodedWithReply key payload replyTopic p.dispatcher.clientId with
    | some env => ⟨p,if accepted then [.published env] else []⟩
    | none => ⟨p,[]⟩
  | .ask inside requestTopic payload uuid owner, p =>
    if inside then ⟨p,if p.handling.isSome then [.barred] else []⟩
    else if p.addressFree owner then
      let request := Client.makeRequest requestTopic payload uuid { clientId := p.dispatcher.clientId }
      (⟨{ p with requests := p.requests.insert owner ⟨request,.registered,none⟩ },[.asked request]⟩ : Outcome _ _).andThen
        (locked (p.dispatcher.performRegistration request.header.replyTopic (some (.fulfil owner)) owner .any))
    else ⟨p,[]⟩
  | .write owner accepted, p =>
    match p.requests.lookup owner with
    | some ⟨envelope,.registered,promise⟩ =>
      if accepted then
        ⟨{ p with requests := p.requests.insert owner ⟨envelope,.waiting,promise⟩ },[.requested envelope]⟩
      else ⟨{ p with requests := p.requests.insert owner ⟨envelope,.refused,promise⟩ },[]⟩
    | _ => ⟨p,[]⟩
  -- `wait_for` comes back: the future is ready, or the time is up
  | .wait owner, p =>
    match p.requests.lookup owner with
    | some ⟨envelope,.waiting,promise⟩ =>
      ⟨{ p with requests := p.requests.insert owner ⟨envelope,promise.elim .expired .answered,promise⟩ },[]⟩
    | _ => ⟨p,[]⟩
  | .leave owner, p =>
    match p.requests.lookup owner with
    | some request =>
      match request.stage.result?,p.dispatcher.performUnregistration request.replyTopic owner with
      | some response,some next =>
        (locked next { p with requests := p.requests.erase owner }).andThen fun p => ⟨p,[.returned request.envelope response]⟩
      | _,_ => ⟨p,[]⟩
    | none => ⟨p,[]⟩
  | .handle message brokerId, p =>
    match p.handling with
    | some _ => ⟨p,[]⟩
    | none =>
      if message.header.handlerKey = Keys.reset then ⟨p,p.dispatcher.resubscribeAll.map .control⟩
      else ⟨{ p with handling := some ⟨message,none,p.dispatcher.handleMessage brokerId message⟩ },[]⟩
  -- the function that ran has returned, or thrown what the loop catches
  | .invoke, p =>
    match p.handling with
    | none => ⟨p,[]⟩
    | some ⟨_,_,[]⟩ => ⟨{ p with handling := none },[]⟩
    | some ⟨message,_,⟨.app func,_,_⟩ :: rest⟩ => ⟨{ p with handling := some ⟨message,some func,rest⟩ },[]⟩
    | some ⟨message,_,⟨.fulfil promise,data,_⟩ :: rest⟩ =>
      ⟨{ p with handling := some ⟨message,none,rest⟩, requests := fulfil promise data p.requests },[]⟩
  | .reply inside payload accepted, p =>
    match p.handling with
    | some ⟨message,some func,rest⟩ =>
      match sendReplyEnvelope (currentReplyTopic inside ⟨message,some func,rest⟩) payload p.dispatcher.clientId with
      | some reply => ⟨p,if accepted then [.replied message reply] else []⟩
      | none => ⟨p,[]⟩
    | _ => ⟨p,[]⟩

/-- The message the label takes from the inbound queue. -/
def Label.received : Label α → Option Envelope
  | .handle message _ => some message
  | _ => none

/-- The uuid `generateUUID` draws for a request. -/
def Label.drawn : Label α → Option Str
  | .ask _ _ _ uuid _ => some uuid
  | _ => none

end Party

/-- What an accepted send of a broker hands on. -/
def Output.carried : Output → Option Envelope
  | .send _ env true | .flood _ env true => some env
  | _ => none

structure Exchange (α : Type) where
  party : Nat → Party α
  /-- Everything the clients' queues took. -/
  uplink : List Envelope := []
  /-- Everything the brokers sent, to clients and to each other. -/
  downlink : List Envelope := []

namespace Exchange

variable {α : Type}

inductive Label (α : Type) where
  | party (id : Nat) (label : Party.Label α)
  | route (b : Broker) (env : Envelope) (senderId : Str) (isFromPeer : Bool) (m : Moment)
  | stats (b : Broker) (pack : SystemStats → Str) (rates : Rates) (m : Moment)

def Label.drawn : Label α → Option Str
  | .party _ label => label.drawn
  | .route .. | .stats .. => none

def step : Label α → Exchange α → Outcome (Exchange α) (Nat × Party.Event α)
  | .party id label, s =>
    if label.received.all (· ∈ s.downlink) then
      let next := (s.party id).act label
      ⟨{ s with
          party := Function.update s.party id next.state
          uplink := s.uplink ++ next.events.filterMap Party.Event.sent },
        next.events.map (Prod.mk id)⟩
    else ⟨s,[]⟩
  | .route b env senderId isFromPeer m, s =>
    if env ∈ s.uplink ++ s.downlink then
      ⟨{ s with
          downlink := s.downlink ++ (b.processMessage env senderId isFromPeer m).events.filterMap Output.carried },[]⟩
    else ⟨s,[]⟩
  | .stats b pack rates m, s =>
    ⟨{ s with downlink := s.downlink ++ (b.broadcastStats pack rates m).events.filterMap Output.carried },[]⟩

def start (clientId : Nat → Str) : Exchange α := { party := fun id => { dispatcher := { clientId := clientId id } } }

end Exchange

end Wisp
