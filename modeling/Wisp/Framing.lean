import Wisp.Multipart
import Wisp.WireFrame

/-! Messages as multipart groups: what the broker's ROUTER loop and `Wire::recv` make of
whatever arrives, and the groups `sendFrames` writes. -/
namespace Wisp

open Transition Multipart

/-- The frame behind the header, if there is one; anything past it is garbage. -/
def takePayload (s : Socket Str) : Socket Str × Str :=
  if s.rcvmore then
    match s.recv with
    | none => (s.drainMultipart,[])
    | some (payload,s) => (s.drainMultipart,payload)
  else (s,[])

/-- One iteration of the ROUTER drain loop: none when nothing is there, else what it
passes to `processMessage`. -/
def routerIteration (codec : HeaderCodec) (s : Socket Str) : Option (Socket Str × Option (Str × Envelope)) :=
  match s.recv with
  | none => none
  | some (identity,s) =>
    if !s.rcvmore then some (s,none)
    else
      match s.recv with
      | none => some (s,none)
      | some (headerFrame,s) =>
        match Wire.decodeHeaderFrame codec headerFrame with
        | none => some (s.drainMultipart,none)
        | some header =>
          let (s,payload) := takePayload s
          some (s,some (identity,⟨header,payload⟩))

namespace Wire

/-- None for nothing there, and for a group without a header that decodes. -/
def recv (codec : HeaderCodec) (s : Socket Str) : Socket Str × Option Envelope :=
  match s.recv with
  | none => (s,none)
  | some (headerFrame,s) =>
    match decodeHeaderFrame codec headerFrame with
    | none => (s.drainMultipart,none)
    | some header =>
      let (s,payload) := takePayload s
      (s,some ⟨header,payload⟩)

/-- A call of `recv` that finds a frame. -/
def receive (codec : HeaderCodec) (s : Socket Str) : Option (Socket Str × Option Envelope) :=
  if s.frames.isEmpty then none else some (recv codec s)

/-- A group with the header first, and the payload behind it. -/
def readGroup (codec : HeaderCodec) : List Str → Option Envelope
  | [] => none
  | headerFrame :: rest => (decodeHeaderFrame codec headerFrame).map fun header => ⟨header,rest.headD []⟩

end Wire

/-- A group as the ROUTER hands it over: the sender's identity comes first. -/
def readRouterGroup (codec : HeaderCodec) : List Str → Option (Str × Envelope)
  | [] => none
  | identity :: rest => (Wire.readGroup codec rest).map fun env => (identity,env)

theorem takePayload_within (rest : List Str) (later : List (Str × Bool)) :
    takePayload (within rest later) = (⟨later,false⟩,rest.headD []) := by
  unfold takePayload
  cases rest with
  | nil => rfl
  | cons payload surplus => simp

theorem routerIteration_takes (codec : HeaderCodec) :
    TakesGroups (routerIteration codec) (readRouterGroup codec) where
  none := rfl
  group frames nonempty later := by
    obtain ⟨identity,rest,rfl⟩ := List.exists_cons_of_ne_nil nonempty
    unfold routerIteration
    simp only [recv_group,within_rcvmore,Bool.not_not]
    cases rest with
    | nil => rfl
    | cons headerFrame rest =>
      simp only [List.isEmpty_cons,Bool.false_eq_true,if_false,recv_within,readRouterGroup,Wire.readGroup]
      cases Wire.decodeHeaderFrame codec headerFrame with
      | none => simp
      | some header => simp [takePayload_within]

theorem Wire.recv_takes (codec : HeaderCodec) : TakesGroups (Wire.receive codec) (Wire.readGroup codec) where
  none := rfl
  group frames nonempty later := by
    obtain ⟨headerFrame,rest,rfl⟩ := List.exists_cons_of_ne_nil nonempty
    have there : (flagged (headerFrame :: rest) ++ later).isEmpty = false := by
      cases rest <;> rfl
    unfold receive recv
    simp only [there,recv_group,Bool.false_eq_true,if_false,readGroup]
    cases decodeHeaderFrame codec headerFrame with
    | none => simp
    | some header => simp [takePayload_within]

/-- What the socket answers for the first frame of a group. -/
inductive Verdict where
  | taken
  | full
  /-- An identity nobody has, under router_mandatory: the send throws. -/
  | unroutable
  deriving DecidableEq, Repr

/-- The sending side of a socket. -/
structure Pipe where
  frames : List (Str × Bool)
  /-- The last frame is not the last of its group. -/
  sndmore : Bool
  deriving DecidableEq, Repr

/-- Once the first frame of a group is taken so are the others. None stands for the exception. -/
def Pipe.send (verdict : Verdict) (frame : Str) (more : Bool) (p : Pipe) : Option (Bool × Pipe) :=
  let taken : Pipe := ⟨p.frames ++ [(frame,more)],more⟩
  if p.sndmore then some (true,taken)
  else
    match verdict with
    | .taken => some (true,taken)
    | .full => some (false,p)
    | .unroutable => none

namespace Wire

def sendFrames (identity : Option Str) (headerFrame payload : Str) (verdict : Verdict) (p : Pipe) : Bool × Pipe :=
  let hasPayload := decide (payload.length > 0)
  let addressed := match identity with
    | none => some (true,p)
    | some identity => p.send verdict identity true
  match addressed with
  | none => (false,p)
  | some (false,p) => (false,p)
  | some (true,p) =>
    match p.send verdict headerFrame hasPayload with
    | none => (false,p)
    | some (sent,p) =>
      if !sent && identity.isNone then (false,p)
      else if hasPayload then
        match p.send verdict payload false with
        | none => (false,p)
        | some (_,p) => (true,p)
      else (true,p)

/-- The frames of a message: the payload has one unless it is empty. -/
def messageFrames (headerFrame payload : Str) : List Str :=
  headerFrame :: if payload.isEmpty then [] else [payload]

/-- The whole group goes out, or nothing of it. -/
theorem sendFrames_group (identity : Option Str) (headerFrame payload : Str) (verdict : Verdict)
    (frames : List (Str × Bool)) :
    sendFrames identity headerFrame payload verdict ⟨frames,false⟩ =
      if verdict = .taken then
        (true,⟨frames ++ flagged (identity.toList ++ messageFrames headerFrame payload),false⟩)
      else (false,⟨frames,false⟩) := by
  cases identity <;> cases verdict <;> cases payload <;>
    simp [sendFrames,Pipe.send,messageFrames,flagged]

theorem readGroup_messageFrames (codec : HeaderCodec) (header : MessageHeader) (payload : Str) :
    readGroup codec (messageFrames (encodeHeader codec header) payload) = some ⟨header,payload⟩ := by
  cases payload <;> simp [readGroup,messageFrames]

end Wire

/-- Each read consumes one whole group, in order of arrival, and makes of it what `read` says. -/
def ReadsAligned (receive : Socket Str → Option (Socket Str × β)) (read : List Str → β)
    (schedule : List (Multipart.Label Str)) : Prop :=
  let outcome := run (step receive) schedule idle
  let groups := arrivals schedule
  outcome.events = (groups.take outcome.events.length).map (fun group => read group.1) ∧
    outcome.state = waiting (groups.drop outcome.events.length) ∧
    receive outcome.state = match groups.drop outcome.events.length with
      | [] => none
      | group :: later => some (waiting later,read group.1)

theorem reads_aligned {receive : Socket Str → Option (Socket Str × β)} {read : List Str → β}
    (takes : TakesGroups receive read) (schedule : List (Multipart.Label Str)) : ReadsAligned receive read schedule := by
  obtain ⟨results,left⟩ := run_aligned takes schedule []
  have next (groups : List (FrameGroup Str)) : receive (waiting groups) = match groups with
      | [] => none
      | group :: later => some (waiting later,read group.1) := by
    cases groups with
    | nil => exact takes.waiting_nil
    | cons group later => exact takes.waiting_cons group later
  refine ⟨results,left,?_⟩
  rw [show run (step receive) schedule idle = run (step receive) schedule (waiting []) from rfl,left]
  exact next _

/-- Whatever groups arrive, and whenever: each is consumed whole by one read, the ROUTER
loop passes on those with a header that decodes behind the identity, `Wire::recv` those
with such a header in front, and a message sent comes back as it was. -/
theorem framing_stays_aligned (codec : HeaderCodec) (schedule : List (Multipart.Label Str)) :
    ReadsAligned (routerIteration codec) (readRouterGroup codec) schedule ∧
    ReadsAligned (Wire.receive codec) (Wire.readGroup codec) schedule ∧
    ∀ header payload identity frames,
      let group := Wire.messageFrames (Wire.encodeHeader codec header) payload
      Wire.sendFrames none (Wire.encodeHeader codec header) payload .taken ⟨frames,false⟩ =
        (true,⟨frames ++ flagged group,false⟩) ∧
      Wire.sendFrames (some identity) (Wire.encodeHeader codec header) payload .taken ⟨frames,false⟩ =
        (true,⟨frames ++ flagged (identity :: group),false⟩) ∧
      ∀ later, routerIteration codec ⟨flagged (identity :: group) ++ later,false⟩ =
          some (⟨later,false⟩,some (identity,⟨header,payload⟩)) ∧
        Wire.recv codec ⟨flagged group ++ later,false⟩ = (⟨later,false⟩,some ⟨header,payload⟩) := by
  refine ⟨reads_aligned (routerIteration_takes codec) schedule,reads_aligned (Wire.recv_takes codec) schedule,
    fun header payload identity frames => ⟨?_,?_,fun later => ⟨?_,?_⟩⟩⟩
  · rw [Wire.sendFrames_group,if_pos rfl]
    rfl
  · rw [Wire.sendFrames_group,if_pos rfl]
    rfl
  · rw [(routerIteration_takes codec).group _ (List.cons_ne_nil _ _),readRouterGroup,Wire.readGroup_messageFrames]
    rfl
  · have taken := (Wire.recv_takes codec).group
      (Wire.messageFrames (Wire.encodeHeader codec header) payload) (List.cons_ne_nil _ _) later
    rw [Wire.receive,Wire.readGroup_messageFrames] at taken
    split at taken
    · cases taken
    · exact Option.some.inj taken

/-- Three groups arrive between two reads: a lone frame, one of an unknown format and a
message with a frame too many. -/
theorem framing_stays_aligned_malformed :
    let header : MessageHeader := { handlerKey := str "chat", topic := str "t" }
    let frame := Wire.encodeHeader .plain header
    let schedule : List (Multipart.Label Str) := [.arrive ⟨[str "c"],by decide⟩,.take,.arrive ⟨[str "c",[2]],by decide⟩,
      .arrive ⟨[str "c",frame,str "hi",str "more"],by decide⟩,.take,.take]
    (run (step (routerIteration .plain)) schedule idle).events = [none,none,some (str "c",⟨header,str "hi"⟩)] ∧
      ReadsAligned (routerIteration .plain) (readRouterGroup .plain) schedule :=
  ⟨by decide +kernel,(framing_stays_aligned .plain _).1⟩

end Wisp
