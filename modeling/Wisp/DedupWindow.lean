import Wisp.MessageHistory
import Wisp.Transition

/-! The dedup history over any sequence of checks: it knows the ids accepted last, as
many as the two generations hold at that moment, and no others. -/
namespace Wisp

open Transition RotatingWindow

namespace MessageHistory

/-- One call, with the id it was about and its answer. -/
def check (uuid : Str) (h : MessageHistory) : Outcome MessageHistory (MessageId × Bool) :=
  ⟨(h.isDuplicate uuid).1,[(dedupId uuid,(h.isDuplicate uuid).2)]⟩

/-- The ids of the calls that returned false, newest first. -/
def acceptedIds (answers : List (MessageId × Bool)) : List MessageId :=
  (answers.filterMap fun answer => if answer.2 then none else some answer.1).reverse

@[simp] theorem acceptedIds_accept (answers : List (MessageId × Bool)) (id : MessageId) :
    acceptedIds (answers ++ [(id,false)]) = id :: acceptedIds answers := by
  simp [acceptedIds]

@[simp] theorem acceptedIds_repeat (answers : List (MessageId × Bool)) (id : MessageId) :
    acceptedIds (answers ++ [(id,true)]) = acceptedIds answers := by
  simp [acceptedIds]

/-- The history remembers the window of what was accepted, and counts what it took since
the last rotation. -/
structure Slides (h : MessageHistory) (accepted : List MessageId) : Prop where
  recollects : Recollects h accepted
  count : h.current.count = accepted.length % maxHistorySize

variable {h : MessageHistory} {accepted : List MessageId} {uuid : Str}

theorem new_slides : Slides new [] := ⟨new_recollects,rfl⟩

/-- The window itself, with its current generation as long as the count says. -/
theorem Slides.window (slides : Slides h accepted) : ∃ w : Window MessageId,
    h.current.Tabulates 15 w.current ∧ h.previous.Tabulates 15 w.previous ∧ Recalls maxHistorySize accepted w ∧
      w.current.length = accepted.length % maxHistorySize := by
  obtain ⟨w,current,previous,recalls⟩ := slides.recollects
  exact ⟨w,current,previous,recalls,current.count.symm.trans slides.count⟩

theorem Slides.accept (slides : Slides h accepted) (fresh : (h.isDuplicate uuid).2 = false) :
    Slides (h.isDuplicate uuid).1 (dedupId uuid :: accepted) := by
  refine ⟨slides.recollects.accept fresh,?_⟩
  obtain ⟨w,current,previous,recalls,aligned⟩ := slides.window
  have unknown : ¬w.Remembers (dedupId uuid) := by
    rw [← isDuplicate_iff current previous recalls,fresh]
    simp
  have spare : w.current.length < 2 ^ 15 := Nat.lt_trans recalls.room (by decide)
  have inserted := current.insert_fresh spare (dedupId_ne_vacant uuid) fun member => unknown (.inl member)
  have size := inserted.count
  rw [← recalls.enter_length aligned (dedupId uuid)]
  unfold isDuplicate at fresh ⊢
  dsimp only at fresh ⊢
  split at fresh
  · simp at fresh
  next missed =>
    rw [List.length_cons] at size
    rw [if_neg missed]
    unfold Window.enter
    simp only [size,ge_iff_le]
    split
    · rfl
    · exact size

theorem check_slides (answers : List (MessageId × Bool)) (slides : Slides h (acceptedIds answers)) :
    Slides (check uuid h).state (acceptedIds (answers ++ (check uuid h).events)) := by
  unfold check
  cases answer : (h.isDuplicate uuid).2 with
  | true =>
    rw [acceptedIds_repeat,isDuplicate_same answer]
    exact slides
  | false =>
    rw [acceptedIds_accept]
    exact slides.accept answer

theorem run_slides (uuids : List Str) :
    Slides (run check uuids new).state (acceptedIds (run check uuids new).events) :=
  run_reports check (fun h answers => Slides h (acceptedIds answers))
    (fun _ answers _ slides => check_slides answers slides) uuids new new_slides

/-- After any calls the next one ends, and returns true exactly if its id is among the
most recent accepted ones, at least the last `maxHistorySize` and less than twice as many. -/
theorem recognizes_sliding_window (uuids : List Str) (uuid : Str) :
    let h := (run check uuids new).state
    let accepted := acceptedIds (run check uuids new).events
    (h.current.slotOf (dedupId uuid)).isSome = true ∧ (h.previous.slotOf (dedupId uuid)).isSome = true ∧
    ((h.isDuplicate uuid).2 = true ↔ dedupId uuid ∈
      accepted.take (min accepted.length (maxHistorySize + accepted.length % maxHistorySize))) ∧
    (dedupId uuid ∈ accepted.take maxHistorySize → (h.isDuplicate uuid).2 = true) ∧
    h.current.count + h.previous.count ≤ 2 * maxHistorySize - 1 := by
  intro h accepted
  obtain ⟨w,current,previous,recalls,aligned⟩ := (run_slides uuids).window
  have room := recalls.room
  have proper := dedupId_ne_vacant uuid
  have spare : w.current.length < 2 ^ 15 := Nat.lt_trans room (by decide)
  refine ⟨?_,?_,?_,fun recent => ?_,?_⟩
  · exact current.slotOf_isSome spare proper
  · exact previous.slotOf_isSome (previous_spare recalls) proper
  · rw [isDuplicate_iff current previous recalls]
    exact recalls.remembers_iff aligned (dedupId uuid)
  · rw [isDuplicate_iff current previous recalls]
    exact recalls.recent (dedupId uuid) recent
  · rw [current.count,previous.count]
    have filled : w.previous.length ≤ maxHistorySize := by
      obtain ⟨_,_,full | ⟨none,_⟩⟩ := recalls.held
      · omega
      · rw [none]
        exact Nat.zero_le _
    omega

end MessageHistory

end Wisp
