import Mathlib.Data.List.Basic
import Wisp.Transition

/-! Multipart groups on a receiving socket. The frames stand in order of arrival, each
with a flag for whether its group goes on; whole groups arrive, and a reader that
forgets to finish one would read the next from its middle. -/
namespace Multipart

open Transition

structure Socket (α : Type) where
  frames : List (α × Bool)
  /-- Whether the frame received last has more of its group behind it. -/
  rcvmore : Bool
  deriving DecidableEq, Repr

def idle : Socket α := ⟨[],false⟩

namespace Socket

def recv (s : Socket α) : Option (α × Socket α) :=
  match s.frames with
  | [] => none
  | (frame,more) :: rest => some (frame,⟨rest,more⟩)

/-- Receive until the group ends. With the flag set and nothing there the reader waits. -/
def drainFrames : List (α × Bool) → Bool → Socket α
  | frames,false => ⟨frames,false⟩
  | [],true => ⟨[],true⟩
  | (_,more) :: rest,true => drainFrames rest more

def drainMultipart (s : Socket α) : Socket α := drainFrames s.frames s.rcvmore

end Socket

/-- The frames of one group, all but the last flagged. -/
def flagged : List α → List (α × Bool)
  | [] => []
  | [last] => [(last,false)]
  | frame :: next :: rest => (frame,true) :: flagged (next :: rest)

/-- What is left of a group that has been received up to some frame. -/
def within (rest : List α) (later : List (α × Bool)) : Socket α := ⟨flagged rest ++ later,!rest.isEmpty⟩

@[simp] theorem within_rcvmore (rest : List α) (later : List (α × Bool)) :
    (within rest later).rcvmore = !rest.isEmpty := rfl

theorem recv_group (frame : α) (rest : List α) (later : List (α × Bool)) (more : Bool) :
    Socket.recv ⟨flagged (frame :: rest) ++ later,more⟩ = some (frame,within rest later) := by
  cases rest <;> rfl

@[simp] theorem recv_within (frame : α) (rest : List α) (later : List (α × Bool)) :
    (within (frame :: rest) later).recv = some (frame,within rest later) :=
  recv_group frame rest later _

@[simp] theorem drain_within (rest : List α) (later : List (α × Bool)) :
    (within rest later).drainMultipart = ⟨later,false⟩ := by
  induction rest with
  | nil => cases later <;> rfl
  | cons frame rest ih =>
    cases rest with
    | nil => cases later <;> rfl
    | cons next rest => exact ih

/-- A group has at least one frame. -/
abbrev FrameGroup (α : Type) := { frames : List α // frames ≠ [] }

inductive Label (α : Type) where
  | arrive (group : FrameGroup α)
  | take

def step (receive : Socket α → Option (Socket α × β)) : Label α → Socket α → Outcome (Socket α) β
  | .arrive group,s => ⟨{ s with frames := s.frames ++ flagged group.1 },[]⟩
  | .take,s =>
    match receive s with
    | none => ⟨s,[]⟩
    | some (s,result) => ⟨s,[result]⟩

/-- The groups that arrive over a schedule. -/
def arrivals (schedule : List (Label α)) : List (FrameGroup α) :=
  schedule.filterMap fun
    | .arrive group => some group
    | .take => none

def waiting (groups : List (FrameGroup α)) : Socket α := ⟨groups.flatMap fun group => flagged group.1,false⟩

/-- The reader consumes one whole group, whatever is behind it, and makes of it what
`read` says. -/
structure TakesGroups (receive : Socket α → Option (Socket α × β)) (read : List α → β) : Prop where
  group : ∀ frames, frames ≠ [] → ∀ later, receive ⟨flagged frames ++ later,false⟩ = some (⟨later,false⟩,read frames)
  none : receive idle = none

variable {receive : Socket α → Option (Socket α × β)} {read : List α → β}

theorem TakesGroups.waiting_nil (takes : TakesGroups receive read) : receive (waiting []) = Option.none := takes.none

theorem TakesGroups.waiting_cons (takes : TakesGroups receive read) (group : FrameGroup α) (groups : List (FrameGroup α)) :
    receive (waiting (group :: groups)) = some (waiting groups,read group.1) := by
  rw [waiting,List.flatMap_cons,takes.group group.1 group.2]
  rfl

/-- However arrivals and reads alternate, the results are those of the groups in order of
arrival, one for each, and the socket stands before the first group not yet read. -/
theorem run_aligned (takes : TakesGroups receive read) (schedule : List (Label α)) (held : List (FrameGroup α)) :
    let outcome := run (step receive) schedule (waiting held)
    let all := held ++ arrivals schedule
    outcome.events = (all.take outcome.events.length).map (fun group => read group.1) ∧
      outcome.state = waiting (all.drop outcome.events.length) := by
  induction schedule generalizing held with
  | nil => simp [arrivals,run]
  | cons label rest ih =>
    cases label with
    | arrive group =>
      have same : arrivals (.arrive group :: rest) = group :: arrivals rest := rfl
      have arrived : step receive (.arrive group) (waiting held) = ⟨waiting (held ++ [group]),[]⟩ := by
        simp [step,waiting]
      simpa only [run,arrived,same,List.nil_append,List.append_assoc,List.singleton_append] using ih (held ++ [group])
    | take =>
      have same : arrivals (.take :: rest) = arrivals rest := rfl
      cases held with
      | nil =>
        have stays : step receive .take (waiting []) = ⟨waiting [],[]⟩ := by
          rw [step,takes.waiting_nil]
        simpa only [run,stays,same,List.nil_append] using ih []
      | cons group held =>
        have taken : step receive .take (waiting (group :: held)) = ⟨waiting held,[read group.1]⟩ := by
          rw [step,takes.waiting_cons]
        obtain ⟨results,left⟩ := ih held
        simp only [run,taken,same,List.cons_append,List.nil_append,List.length_cons,List.take_succ_cons,
          List.map_cons,List.drop_succ_cons]
        exact ⟨congrArg (read group.1 :: ·) results,left⟩

end Multipart
