import Wisp.ClientRecord
import Wisp.PeerOpening

/-! A link whose remote forgets it. The RESET this draws is handled on the link's
worker thread, which reads the interest under its lock and then pushes topic after
topic on the link's queue; the broker thread changes the interest under the same lock
and pushes on the same queue afterwards. Each locked section and each push is one
step. The queue and the pipes lose nothing; the remote keeps a `ClientRecord`. -/
namespace Wisp

open Transition EditLog Routing

namespace Interest

/-- What is left to push of the update that led to this interest. -/
def Updating (interest : Interest) (pending : List Control) : Prop :=
  ∃ whole, interest.Update whole ∧ pending <:+ whole

variable {interest : Interest} {held : Finset Str} {pending : List Control}

theorem adds_subscribes (topics : List Str) : Adds (Control.edits (topics.map .subscribe)) := by
  rw [Control.edits_subscribes]
  rintro edit member
  obtain ⟨topic,_,rfl⟩ := List.mem_map.mp member
  exact ⟨topic,rfl⟩

theorem adds_resent (interest : Interest) : Adds (Control.edits interest.sendInterestTo) := by
  unfold sendInterestTo
  split
  · exact adds_subscribes [Keys.wildcardTopic]
  · exact adds_subscribes _

/-- A remote that holds this set sends nothing that is not wanted. A saturated broker
never narrows again, so nothing is asked of it. -/
def Permits (interest : Interest) (held : Finset Str) : Prop :=
  interest.saturated = true ∨ held ⊆ interest.reach ∧ (interest.wide = false → Keys.wildcardTopic ∉ held)

theorem Permits.mono (permits : interest.Permits held) {fewer : Finset Str} (subset : fewer ⊆ held) :
    interest.Permits fewer :=
  permits.imp_right fun ⟨within,narrow⟩ => ⟨subset.trans within,fun off member => narrow off (subset member)⟩

/-- The links may hold this topic. -/
def Asks (interest : Interest) (topic : Str) : Prop :=
  topic ∈ interest.topics ∨ topic = Keys.wildcardTopic ∧ interest.wide = true

instance (topic : Str) : Decidable (interest.Asks topic) := inferInstanceAs (Decidable (_ ∨ _))

theorem Permits.insert (permits : interest.Permits held) {topic : Str} (asks : interest.Asks topic) :
    interest.Permits (insert topic held) := by
  refine permits.imp_right fun ⟨within,narrow⟩ => ⟨Finset.insert_subset ?_ within,fun off member => ?_⟩
  · rcases asks with listed | ⟨rfl,_⟩
    · exact Finset.mem_insert_of_mem (List.mem_toFinset.mpr listed)
    · exact Finset.mem_insert_self _ _
  · rcases Finset.mem_insert.mp member with rfl | old
    · rcases asks with listed | ⟨_,wide⟩
      · exact interest.wildcard_not_mem listed
      · simp [off] at wide
    · exact narrow off old

theorem Permits.insert_all (topics : List Str) (permits : interest.Permits held)
    (asks : ∀ topic ∈ topics, interest.Asks topic) :
    interest.Permits (replay held (Control.edits (topics.map .subscribe))) := by
  induction topics generalizing held with
  | nil => exact permits
  | cons topic rest ih =>
    exact ih (permits.insert (asks topic List.mem_cons_self)) fun t member => asks t (List.mem_cons_of_mem _ member)

theorem Permits.subscribed (permits : interest.Permits held) (topic : Str) :
    (interest.noteTopicSubscribed topic).1.Permits
      (replay held (Control.edits (interest.noteTopicSubscribed topic).2)) := by
  unfold noteTopicSubscribed
  split_ifs with wild already propagatable known
  · exact permits
  · have wider : Permits { interest with wildcard := true } held :=
      permits.imp_right fun both => ⟨both.1,by simp [wide]⟩
    exact wider.insert (.inr ⟨rfl,by simp [wide]⟩)
  · exact permits
  · dsimp only
    split
    next full => exact .inl full
    next unsaturated =>
      have grown : (interest.add topic propagatable known).Permits held := by
        refine permits.imp (fun full => (known (.inl full)).elim) ?_
        rintro ⟨within,narrow⟩
        refine ⟨within.trans ?_,fun off => ?_⟩
        · refine Finset.insert_subset_insert _ fun t listed => ?_
          exact List.mem_toFinset.mpr (List.mem_cons_of_mem _ (List.mem_toFinset.mp listed))
        · refine narrow ?_
          have flag := (Bool.or_eq_false_iff.mp off).2
          simp only [wide,Bool.or_eq_false_iff]
          exact ⟨Bool.eq_false_iff.mpr fun full => known (.inl full),flag⟩
      exact grown.insert (.inl List.mem_cons_self)
  · exact permits

theorem Permits.unsubscribed (permits : interest.Permits held) (topic : Str) :
    (interest.noteTopicUnsubscribed topic).1.Permits
      (replay held (Control.edits (interest.noteTopicUnsubscribed topic).2)) := by
  unfold noteTopicUnsubscribed
  split_ifs with wild flag full propagatable absent
  · exact .inl full
  · have bare : Permits { interest with wildcard := false } (held.erase Keys.wildcardTopic) := by
      refine permits.imp_right fun both => ⟨(Finset.erase_subset _ _).trans both.1,fun _ => ?_⟩
      exact Finset.notMem_erase _ _
    exact bare.insert_all interest.topics fun t listed => .inl listed
  · exact permits
  · exact permits
  · refine permits.imp_right ?_
    rintro ⟨within,narrow⟩
    refine ⟨fun t member => ?_,fun off member => ?_⟩
    · obtain ⟨other,old⟩ := Finset.mem_erase.mp member
      refine (Finset.mem_insert.mp (within old)).elim (fun every => every ▸ Finset.mem_insert_self _ _) fun listed => ?_
      exact Finset.mem_insert_of_mem (List.mem_toFinset.mpr
        (interest.distinct.mem_erase_iff.mpr ⟨other,List.mem_toFinset.mp listed⟩))
    · exact narrow off (Finset.mem_of_mem_erase member)
  · exact permits

theorem permits_opened (interest : Interest) : interest.Permits (replay ∅ (Control.edits interest.sendInterestTo)) := by
  have nothing : interest.Permits ∅ := .inr ⟨Finset.empty_subset _,by simp⟩
  unfold sendInterestTo
  split
  next wide => exact nothing.insert (.inr ⟨rfl,wide⟩)
  · exact nothing.insert_all _ fun t listed => .inl listed

end Interest

def Control.added? : Control → Option Str
  | .subscribe topic => some topic
  | _ => none

/-- What a link's worker puts on the wire. -/
inductive LinkFrame where
  | control (message : Control)
  /-- A heartbeat or forwarded traffic. -/
  | traffic
  deriving DecidableEq, Repr

namespace LinkFrame

def message : LinkFrame → ClientMessage
  | .control .connect => .connect
  | .control (.subscribe topic) => .subscribe topic .any
  | .control (.unsubscribe topic) => .unsubscribe topic
  | .control (.disconnect _) => .disconnect
  | .traffic => .other

def control? : LinkFrame → Option Control
  | .control message => some message
  | .traffic => none

def controls (wire : List LinkFrame) : List Control := wire.filterMap control?

@[simp] theorem controls_nil : controls [] = [] := rfl

@[simp] theorem controls_control (message : Control) (wire : List LinkFrame) :
    controls (.control message :: wire) = message :: controls wire := rfl

@[simp] theorem controls_traffic (wire : List LinkFrame) : controls (.traffic :: wire) = controls wire := rfl

@[simp] theorem controls_append (wire more : List LinkFrame) : controls (wire ++ more) = controls wire ++ controls more :=
  List.filterMap_append

end LinkFrame

/-- A broker's interest, one of its links and the remote's record of that link. -/
structure Resending where
  interest : Interest
  /-- What the broker thread has still to push on the link. -/
  pending : List Control
  /-- What the RESET callback has still to push. -/
  resending : List Control
  control : List Control
  wire : List LinkFrame
  remote : ClientRecord
  /-- RESETs on their way to the callback. -/
  resets : Nat

namespace Resending

inductive Label where
  | subscribed (topic : Str)
  | unsubscribed (topic : Str)
  | push
  | send
  | traffic
  | receive
  | forget
  | reset
  | resend

/-- The link as `addPeer` leaves it: the worker leads with CONNECT, the interest is queued. -/
def start (interest : Interest) : Resending :=
  { interest, pending := [], resending := [], control := interest.sendInterestTo
    wire := [.control .connect], remote := .empty, resets := 0 }

def act : Label → Resending → Resending
  -- the interest sections of `noteTopicSubscribed` and `noteTopicUnsubscribed`
  | .subscribed topic, s =>
    if s.pending = [] ∧ topic ≠ [] ∧ topic.length ≤ maxTopicLengthBytes then
      let change := s.interest.noteTopicSubscribed topic
      { s with interest := change.1, pending := change.2 }
    else s
  | .unsubscribed topic, s =>
    if s.pending = [] then
      let change := s.interest.noteTopicUnsubscribed topic
      { s with interest := change.1, pending := change.2 }
    else s
  | .push, s =>
    match s.pending with
    | [] => s
    | message :: rest => { s with control := s.control ++ [message], pending := rest }
  -- the worker thread sends nothing while it is in the callback
  | .send, s =>
    match s.control with
    | [] => s
    | message :: rest =>
      if s.resending = [] then { s with control := rest, wire := s.wire ++ [.control message] } else s
  | .traffic, s => if s.resending = [] then { s with wire := s.wire ++ [.traffic] } else s
  | .receive, s =>
    match s.wire with
    | [] => s
    | frame :: rest =>
      { s with
        wire := rest
        remote := s.remote.hear frame.message
        resets := s.resets + (s.remote.greets frame.message).toNat }
  | .forget, s => { s with remote := .empty }
  -- the interest section of `sendInterestTo`
  | .reset, s =>
    if s.resending = [] ∧ 0 < s.resets then
      { s with resets := s.resets - 1, resending := s.interest.sendInterestTo }
    else s
  | .resend, s =>
    match s.resending with
    | [] => s
    | message :: rest => { s with control := s.control ++ [message], resending := rest }

def step (label : Label) (s : Resending) : Outcome Resending Empty := ⟨s.act label,[]⟩

/-- What a label can do: nothing where it is not enabled, and otherwise this. -/
inductive Acts (s : Resending) : Label → Resending → Prop
  | idles (label : Label) : Acts s label s
  | subscribed {topic : Str} (free : s.pending = []) (fits : topic ≠ [] ∧ topic.length ≤ maxTopicLengthBytes) :
      Acts s (.subscribed topic) { s with
        interest := (s.interest.noteTopicSubscribed topic).1
        pending := (s.interest.noteTopicSubscribed topic).2 }
  | unsubscribed {topic : Str} (free : s.pending = []) :
      Acts s (.unsubscribed topic) { s with
        interest := (s.interest.noteTopicUnsubscribed topic).1
        pending := (s.interest.noteTopicUnsubscribed topic).2 }
  | push {message : Control} {rest : List Control} (listed : s.pending = message :: rest) :
      Acts s .push { s with control := s.control ++ [message], pending := rest }
  | send {message : Control} {rest : List Control} (listed : s.control = message :: rest) (outside : s.resending = []) :
      Acts s .send { s with control := rest, wire := s.wire ++ [.control message] }
  | traffic (outside : s.resending = []) : Acts s .traffic { s with wire := s.wire ++ [.traffic] }
  | receive {frame : LinkFrame} {rest : List LinkFrame} (listed : s.wire = frame :: rest) :
      Acts s .receive { s with
        wire := rest
        remote := s.remote.hear frame.message
        resets := s.resets + (s.remote.greets frame.message).toNat }
  | forget : Acts s .forget { s with remote := .empty }
  | reset (outside : s.resending = []) (greeted : 0 < s.resets) :
      Acts s .reset { s with resets := s.resets - 1, resending := s.interest.sendInterestTo }
  | resend {message : Control} {rest : List Control} (listed : s.resending = message :: rest) :
      Acts s .resend { s with control := s.control ++ [message], resending := rest }

theorem act_acts (s : Resending) (label : Label) : Acts s label (s.act label) := by
  cases label with
  | subscribed topic =>
    simp only [act]
    split
    next ready => exact .subscribed ready.1 ready.2
    · exact .idles _
  | unsubscribed topic =>
    simp only [act]
    split
    next free => exact .unsubscribed free
    · exact .idles _
  | push =>
    simp only [act]
    split
    · exact .idles _
    next listed => exact .push listed
  | send =>
    simp only [act]
    split
    · exact .idles _
    next listed =>
      split
      next outside => exact .send listed outside
      · exact .idles _
  | traffic =>
    simp only [act]
    split
    next outside => exact .traffic outside
    · exact .idles _
  | receive =>
    simp only [act]
    split
    · exact .idles _
    next listed => exact .receive listed
  | forget => exact .forget
  | reset =>
    simp only [act]
    split
    next ready => exact .reset ready.1 ready.2
    · exact .idles _
  | resend =>
    simp only [act]
    split
    · exact .idles _
    next listed => exact .resend listed

/-- Everything queued is processed, and no RESET is to come. -/
def Quiet (s : Resending) : Prop :=
  s.pending = [] ∧ s.resending = [] ∧ s.control = [] ∧ s.wire = [] ∧ s.resets = 0

instance (s : Resending) : Decidable s.Quiet := inferInstanceAs (Decidable (_ ∧ _))

/-- What is queued and sent, in the order in which the remote gets it. -/
def log (s : Resending) : List Control := LinkFrame.controls s.wire ++ s.control

/-- Below its limit the remote takes what the link sends as its log says. -/
theorem held_hear (remote : ClientRecord) (frame : LinkFrame)
    (sendable : ∀ message, frame = .control message → message = .connect ∨ message.Pushed)
    (room : ∀ topic, frame = .control (.subscribe topic) → remote.canSubscribe topic = true) :
    (remote.hear frame.message).held = replay remote.held (Control.edits (LinkFrame.controls [frame])) := by
  cases frame with
  | traffic => rfl
  | control message =>
    cases message with
    | connect => rfl
    | subscribe topic =>
      have fits : TopicFits topic := (sendable _ rfl).resolve_left (by simp)
      refine ClientRecord.held_subscribe .any ?_
      simp [ClientRecord.accepts,fits.1,fits.2,room topic rfl]
    | unsubscribe topic => exact ClientRecord.held_unsubscribe topic
    | disconnect brokerId => exact ((sendable _ rfl).resolve_left (by simp)).elim

/-- At its limit it takes less. -/
theorem held_hear_subset (remote : ClientRecord) (frame : LinkFrame)
    (sendable : ∀ message, frame = .control message → message = .connect ∨ message.Pushed) :
    (remote.hear frame.message).held ⊆ replay remote.held (Control.edits (LinkFrame.controls [frame])) := by
  cases frame with
  | traffic => exact subset_rfl
  | control message =>
    cases message with
    | connect => exact subset_rfl
    | subscribe topic => exact ClientRecord.held_subscribe_subset topic .any
    | unsubscribe topic => exact (ClientRecord.held_unsubscribe topic).le
    | disconnect brokerId => exact ((sendable _ rfl).resolve_left (by simp)).elim

theorem greets_frame {remote : ClientRecord} {frame : LinkFrame} (unknown : remote.known = false)
    (sendable : ∀ message, frame = .control message → message = .connect ∨ message.Pushed)
    (unled : frame ≠ .control .connect) : remote.greets frame.message = true := by
  cases frame with
  | traffic => simp [ClientRecord.greets,LinkFrame.message,unknown]
  | control message =>
    cases message with
    | connect => exact absurd rfl unled
    | disconnect brokerId => exact ((sendable _ rfl).resolve_left (by simp)).elim
    | _ => simp [ClientRecord.greets,LinkFrame.message,unknown]

/-- What the link's threads keep to, whatever the remote does. -/
structure Orderly (s : Resending) : Prop where
  fits : ∀ topic ∈ s.interest.topics, TopicFits topic
  queued : ∀ message ∈ s.control ++ s.resending ++ s.pending, message.Pushed
  framed : ∀ message, .control message ∈ s.wire → message = .connect ∨ message.Pushed
  leads : .control .connect ∉ s.wire.tail
  unheard : .control .connect ∈ s.wire → s.remote = .empty
  adds : Adds (Control.edits s.resending)
  updating : s.interest.Updating s.pending

theorem start_orderly {interest : Interest} (fits : ∀ topic ∈ interest.topics, TopicFits topic) :
    Orderly (start interest) := by
  refine ⟨fits,?_,?_,?_,fun _ => rfl,?_,[],.none,List.suffix_refl _⟩
  · simpa [start] using interest.sendInterestTo_pushed fits
  · simp [start]
  · simp [start]
  · simp [start,Adds]

theorem connect_unpushed : ¬Control.Pushed .connect := id

section

variable {s : Resending} (orderly : Orderly s)

include orderly

theorem Orderly.changed (idle : s.pending = []) {interest : Interest} {pending : List Control}
    (fits : ∀ topic ∈ interest.topics, TopicFits topic) (pushed : ∀ message ∈ pending, message.Pushed)
    (update : interest.Update pending) : Orderly { s with interest, pending } := by
  refine ⟨fits,fun message member => ?_,orderly.framed,orderly.leads,orderly.unheard,orderly.adds,
    pending,update,List.suffix_refl _⟩
  rcases List.mem_append.mp member with old | new
  · exact orderly.queued message (by rw [idle,List.append_nil]; exact old)
  · exact pushed message new

theorem Orderly.framed_more {frame : LinkFrame} (pushed : ∀ message, frame = .control message → message.Pushed)
    {control : List Control} (fewer : ∀ message ∈ control, message ∈ s.control) :
    Orderly { s with control, wire := s.wire ++ [frame] } := by
  have other : frame ≠ .control .connect := fun same => connect_unpushed (pushed _ same)
  refine ⟨orderly.fits,fun message member => orderly.queued message ?_,fun message member => ?_,fun member => ?_,
    fun member => ?_,orderly.adds,orderly.updating⟩
  · simp only [List.mem_append] at member ⊢
    exact member.imp_left (Or.imp_left (fewer message))
  · rcases List.mem_append.mp member with old | new
    · exact orderly.framed message old
    · exact .inr (pushed message (List.mem_singleton.mp new).symm)
  · have leads := orderly.leads
    revert member leads
    cases s.wire with
    | nil => simp
    | cons first rest => simp [other.symm]
  · rcases List.mem_append.mp member with old | new
    · exact orderly.unheard old
    · exact absurd (List.mem_singleton.mp new).symm other

theorem Orderly.acts {label : Label} {s' : Resending} (acts : Acts s label s') : Orderly s' := by
  cases acts with
  | idles => exact orderly
  | @subscribed topic free fits =>
    obtain ⟨bounded,pushed⟩ := Interest.noteTopicSubscribed_pushed orderly.fits fits
    exact orderly.changed free bounded pushed (Interest.noteTopicSubscribed_update _ _)
  | @unsubscribed topic free =>
    obtain ⟨bounded,pushed⟩ := Interest.noteTopicUnsubscribed_pushed orderly.fits topic
    exact orderly.changed free bounded pushed (Interest.noteTopicUnsubscribed_update _ _)
  | @push message rest listed =>
    obtain ⟨whole,update,suffix⟩ := orderly.updating
    refine ⟨orderly.fits,fun other member => orderly.queued other ?_,orderly.framed,orderly.leads,orderly.unheard,
      orderly.adds,whole,update,?_⟩
    · simp only [listed,List.mem_append,List.mem_cons,List.not_mem_nil,or_false] at member ⊢
      tauto
    · rw [listed] at suffix
      exact (List.suffix_cons message rest).trans suffix
  | @send message rest listed outside =>
    refine orderly.framed_more (fun other same => ?_) fun other member => ?_
    · cases same
      exact orderly.queued message (by simp [listed])
    · rw [listed]
      exact List.mem_cons_of_mem _ member
  | traffic outside => exact orderly.framed_more (by simp) fun _ => id
  | receive listed =>
    have leads := orderly.leads
    rw [listed,List.tail_cons] at leads
    refine ⟨orderly.fits,orderly.queued,fun message member => orderly.framed message ?_,?_,
      fun member => (leads member).elim,orderly.adds,orderly.updating⟩
    · rw [listed]
      exact List.mem_cons_of_mem _ member
    · exact fun member => leads (List.mem_of_mem_tail member)
  | forget => exact ⟨orderly.fits,orderly.queued,orderly.framed,orderly.leads,fun _ => rfl,orderly.adds,orderly.updating⟩
  | reset outside greeted =>
    refine ⟨orderly.fits,fun message member => ?_,orderly.framed,orderly.leads,orderly.unheard,
      s.interest.adds_resent,orderly.updating⟩
    simp only [List.mem_append] at member
    rcases member with (queued | resent) | pending
    · exact orderly.queued message (by simp [queued])
    · exact Interest.sendInterestTo_pushed orderly.fits message resent
    · exact orderly.queued message (by simp [pending])
  | @resend message rest listed =>
    refine ⟨orderly.fits,fun other member => orderly.queued other ?_,orderly.framed,orderly.leads,orderly.unheard,
      fun edit member => orderly.adds edit ?_,orderly.updating⟩
    · simp only [listed,List.mem_append,List.mem_cons,List.not_mem_nil,or_false] at member ⊢
      tauto
    · rw [listed]
      exact ((List.suffix_cons message rest).filterMap _).subset member

end

/-! Nothing is resurrected, as long as no push of a re-send comes behind the withdrawal
of its topic. -/

/-- The topic that the callback pushes is still wanted, or its withdrawal is still to be pushed. -/
def Current (s : Resending) : Label → Prop
  | .resend => ∀ topic ∈ s.resending.head?.bind Control.added?,
      s.interest.Asks topic ∨ .unsubscribe topic ∈ s.pending
  | _ => True

instance (s : Resending) (label : Label) : Decidable (s.Current label) :=
  match label with
  | .resend => inferInstanceAs (Decidable (∀ _ ∈ _, _))
  | .subscribed _ | .unsubscribed _ | .push | .send | .traffic | .receive | .forget | .reset => isTrue trivial

/-- What is queued and pending leaves the remote with nothing unwanted. -/
structure Bare (s : Resending) : Prop extends Orderly s where
  permits : s.interest.Permits (replay s.remote.held (Control.edits (s.log ++ s.pending)))

theorem start_bare {interest : Interest} (fits : ∀ topic ∈ interest.topics, TopicFits topic) : Bare (start interest) := by
  refine ⟨start_orderly fits,?_⟩
  simpa [start,log] using interest.permits_opened

section

variable {s : Resending} (bare : Bare s)

include bare

theorem Bare.keep {s' : Resending} (orderly : Orderly s') (interest : s'.interest = s.interest)
    (fewer : replay s'.remote.held (Control.edits (s'.log ++ s'.pending)) ⊆
      replay s.remote.held (Control.edits (s.log ++ s.pending))) : Bare s' :=
  ⟨orderly,by rw [interest]; exact bare.permits.mono fewer⟩

theorem Bare.changed (idle : s.pending = []) {interest : Interest} {pending : List Control}
    (orderly : Orderly { s with interest, pending })
    (later : ∀ held, s.interest.Permits held → interest.Permits (replay held (Control.edits pending))) :
    Bare { s with interest, pending } := by
  have permits := bare.permits
  rw [idle,List.append_nil] at permits
  have next := later _ permits
  rw [← replay_append,← Control.edits_append] at next
  exact ⟨orderly,next⟩

theorem Bare.acts {label : Label} {s' : Resending} (acts : Acts s label s') (current : s.Current label) :
    Bare s' := by
  have orderly := bare.toOrderly.acts acts
  cases acts with
  | idles => exact bare
  | @subscribed topic free fits => exact bare.changed free orderly fun held permits => permits.subscribed topic
  | @unsubscribed topic free => exact bare.changed free orderly fun held permits => permits.unsubscribed topic
  | push listed => exact bare.keep orderly rfl (by simp [log,listed])
  | send listed outside => exact bare.keep orderly rfl (by simp [log,listed])
  | traffic outside => exact bare.keep orderly rfl (by simp [log])
  | @receive frame rest listed =>
    refine bare.keep orderly rfl ?_
    have sendable (message : Control) (same : frame = .control message) : message = .connect ∨ message.Pushed :=
      bare.framed message (by simp [listed,same])
    have parts : s.log ++ s.pending = LinkFrame.controls [frame] ++ (LinkFrame.controls rest ++ s.control ++ s.pending) := by
      simp only [← List.append_assoc,← LinkFrame.controls_append,log,listed,List.singleton_append]
    rw [parts,Control.edits_append (LinkFrame.controls [frame]),replay_append s.remote.held]
    exact replay_mono _ (held_hear_subset s.remote frame sendable)
  | forget => exact bare.keep orderly rfl (replay_mono _ (Finset.empty_subset _))
  | reset outside greeted => exact bare.keep orderly rfl subset_rfl
  | @resend message rest listed =>
    obtain ⟨topic,rfl⟩ : ∃ topic, message = .subscribe topic := by
      have pushed := bare.queued message (by simp [listed])
      have adds := bare.adds
      rw [listed] at adds
      cases message with
      | subscribe topic => exact ⟨topic,rfl⟩
      | unsubscribe topic => simpa using adds (.drop topic) (by simp)
      | connect => exact pushed.elim
      | disconnect brokerId => exact pushed.elim
    refine ⟨orderly,?_⟩
    have permits := bare.permits
    simp only [log,Control.edits_append,replay_append,Control.edits_subscribe,Control.edits_nil,replay_cons,replay_nil,
      Edit.apply] at permits ⊢
    rcases current topic (by rw [listed]; exact rfl) with asks | withdrawn
    · exact (permits.insert asks).mono (replay_insert_subset _ _ _)
    · have dropped : .drop topic ∈ Control.edits s.pending := List.mem_filterMap.mpr ⟨_,withdrawn,rfl⟩
      rwa [replay_insert_dropped dropped]

end

/-- The remote forgot the link, and the callback has read `t` from the interest. -/
def forgotten : List Label :=
  [.subscribed (str "t"),.push,.send,.receive,.receive,.forget,.traffic,.receive,.reset]

/-- In every interleaving whose re-sends push nothing behind its withdrawal, once
everything queued is processed a narrow broker's remote holds nothing but its interest. -/
theorem resend_resurrects_nothing (interest : Interest) (fits : ∀ topic ∈ interest.topics, TopicFits topic)
    (schedule : List Label) (current : Always step Current schedule (start interest))
    (quiet : (run step schedule (start interest)).state.Quiet)
    (narrow : (run step schedule (start interest)).state.interest.wide = false) :
    ∀ topic ∈ (run step schedule (start interest)).state.remote.topics,
      topic ∈ (run step schedule (start interest)).state.interest.topics := by
  have bare := run_invariant step Bare (fun s label current bare => bare.acts (act_acts s label) current) schedule
    (start interest) current (start_bare fits)
  generalize (run step schedule (start interest)).state = reached at *
  obtain ⟨pending,_,control,wire,_⟩ := quiet
  have permits : reached.interest.Permits reached.remote.held := by
    simpa [log,pending,control,wire] using bare.permits
  intro topic held
  rw [← ClientRecord.mem_held] at held
  rcases permits with full | ⟨within,bounded⟩
  · simp [Interest.wide,full] at narrow
  · rcases Finset.mem_insert.mp (within held) with rfl | listed
    · exact (bounded narrow held).elim
    · exact List.mem_toFinset.mp listed

/-- Everything that the two threads queued goes out and is processed. -/
def settle : List Label := [.send,.send,.receive,.receive]

def withdrawnBehind : List Label := forgotten ++ [.unsubscribed (str "t"),.resend,.push] ++ settle

theorem resend_resurrects_nothing_in_time :
    Always step Current withdrawnBehind (start .empty) ∧
      str "t" ∉ (run step withdrawnBehind (start .empty)).state.remote.topics := by
  have current : Always step Current withdrawnBehind (start .empty) := by decide +kernel
  have gone : str "t" ∉ (run step withdrawnBehind (start .empty)).state.interest.topics := by decide +kernel
  refine ⟨current,fun held => gone ?_⟩
  exact resend_resurrects_nothing .empty (by simp [Interest.empty]) withdrawnBehind current (by decide +kernel)
    (by decide +kernel) (str "t") held

/-- The push of the withdrawal comes ahead of that of the re-send. -/
def withdrawnAhead : List Label := forgotten ++ [.unsubscribed (str "t"),.push,.resend] ++ settle

theorem resend_resurrects_topic :
    let reached := (run step withdrawnAhead (start .empty)).state
    reached.Quiet ∧ reached.interest.wide = false ∧ str "t" ∈ reached.remote.topics ∧
      str "t" ∉ reached.interest.topics := by
  refine ⟨?_,?_,?_,?_⟩ <;> decide +kernel

end Resending

end Wisp
