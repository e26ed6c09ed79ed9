import Mathlib.Data.Finset.Card
import Wisp.DedupWindow

/-! The dedup table as a finite set. Any calls on it that leave a slot to spare are
answered as a set of ids answers them; the two tables of a broker only ever see such
calls, whatever uuids it is asked about. -/
namespace Wisp

open Transition

namespace MessageIdSet

inductive Call where
  | insert (id : MessageId)
  | contains (id : MessageId)
  | size
  | clear
  deriving DecidableEq, Repr

/-- What a call returned; a probe that walks the table for ever never does. -/
inductive Answer where
  | inserted
  | found (answer : Bool)
  | sized (count : Nat)
  | cleared
  | circling
  deriving DecidableEq, Repr

/-- The answer of a call that probes for `id` first. -/
def probed (set : MessageIdSet) (id : MessageId) (answer : Answer) : Answer :=
  if (set.slotOf id).isSome then answer else .circling

def call : Call → MessageIdSet → Outcome MessageIdSet Answer
  | .insert id, set => ⟨set.insert id,[set.probed id .inserted]⟩
  | .contains id, set => ⟨set,[set.probed id (.found (set.contains id))]⟩
  | .size, set => ⟨set,[.sized set.count]⟩
  | .clear, set => ⟨set.clear,[.cleared]⟩

/-- The same calls on the set of the ids inserted since the last `clear`. -/
def callOnSet : Call → Finset MessageId → Outcome (Finset MessageId) Answer
  | .insert id, ids => ⟨Insert.insert id ids,[.inserted]⟩
  | .contains id, ids => ⟨ids,[.found (decide (id ∈ ids))]⟩
  | .size, ids => ⟨ids,[.sized ids.card]⟩
  | .clear, _ => ⟨∅,[.cleared]⟩

/-- Every call on the set returns. -/
theorem run_returns (calls : List Call) (ids : Finset MessageId) :
    Answer.circling ∉ (run callOnSet calls ids).events := by
  induction calls generalizing ids with
  | nil => exact List.not_mem_nil
  | cons next rest ih =>
    rw [run,List.mem_append]
    rintro (now | later)
    · cases next <;> simp [callOnSet] at now
    · exact ih _ later

/-- No call is about the empty-slot mark, and an insert leaves fewer ids than slots. -/
def Spares (capacity : Nat) (ids : Finset MessageId) : Call → Prop
  | .insert id => id ≠ .vacant ∧ (Insert.insert id ids).card < capacity
  | .contains id => id ≠ .vacant
  | .size => True
  | .clear => True

/-- The table stores the set and has a free slot. -/
structure Represents (bits : Nat) (set : MessageIdSet) (ids : Finset MessageId) : Prop where
  members : ∃ members, Tabulates bits set members ∧ members.toFinset = ids
  spare : ids.card < 2 ^ bits

variable {bits bound : Nat} {set : MessageIdSet} {ids : Finset MessageId} {id : MessageId} {log : List Call}

/-- The members as a list, one entry for each id of the set. -/
theorem Represents.table (represents : Represents bits set ids) : ∃ members,
    Tabulates bits set members ∧ members.length = ids.card ∧ members.length < 2 ^ bits ∧
      ∀ id, id ∈ members ↔ id ∈ ids := by
  obtain ⟨members,table,rfl⟩ := represents.members
  have size := List.toFinset_card_of_nodup table.stores.nodup
  exact ⟨members,table,size.symm,size ▸ represents.spare,fun id => List.mem_toFinset.symm⟩

theorem new_represents (bits : Nat) : Represents bits (new (2 ^ bits)) ∅ :=
  ⟨⟨[],new_tabulates bits,rfl⟩,Nat.two_pow_pos bits⟩

theorem Represents.count (represents : Represents bits set ids) : set.count = ids.card := by
  obtain ⟨members,table,size,_,_⟩ := represents.table
  rw [table.count,size]

theorem Represents.contains (represents : Represents bits set ids) (proper : id ≠ .vacant) :
    set.contains id = decide (id ∈ ids) := by
  obtain ⟨members,table,_,spare,same⟩ := represents.table
  rw [Bool.eq_iff_iff,table.contains_iff spare proper,same,decide_eq_true_iff]

theorem Represents.probed (represents : Represents bits set ids) (proper : id ≠ .vacant) (answer : Answer) :
    set.probed id answer = answer := by
  obtain ⟨members,table,_,spare,_⟩ := represents.table
  obtain ⟨d,_,stop,_⟩ := table.slotOf_stops spare proper
  rw [MessageIdSet.probed,stop]
  rfl

theorem Represents.insert (represents : Represents bits set ids) (proper : id ≠ .vacant)
    (room : (Insert.insert id ids).card < 2 ^ bits) : Represents bits (set.insert id) (Insert.insert id ids) := by
  obtain ⟨members,table,rfl⟩ := represents.members
  have spare : members.length < 2 ^ bits :=
    List.toFinset_card_of_nodup table.stores.nodup ▸ represents.spare
  refine ⟨?_,room⟩
  by_cases member : id ∈ members
  · rw [table.insert_member spare proper member]
    exact ⟨members,table,(Finset.insert_eq_self.mpr (List.mem_toFinset.mpr member)).symm⟩
  · exact ⟨id :: members,table.insert_fresh spare proper member,List.toFinset_cons⟩

theorem Represents.clear (represents : Represents bits set ids) : Represents bits set.clear ∅ := by
  obtain ⟨members,table,_⟩ := represents.members
  exact ⟨⟨[],table.clear,rfl⟩,Nat.two_pow_pos bits⟩

/-- One call: the table stays a picture of the set and gives the set's answer. -/
theorem call_simulates (set : MessageIdSet) (ids : Finset MessageId) (next : Call)
    (spares : Spares (2 ^ bits) ids next) (represents : Represents bits set ids) :
    Represents bits (call next set).state (callOnSet next ids).state ∧
      (call next set).events = (callOnSet next ids).events := by
  cases next with
  | insert id =>
    obtain ⟨proper,room⟩ := spares
    exact ⟨represents.insert proper room,congrArg ([·]) (represents.probed proper _)⟩
  | contains id =>
    refine ⟨represents,congrArg ([·]) ?_⟩
    rw [represents.probed spares,represents.contains spares]
  | size => exact ⟨represents,congrArg (fun count => [Answer.sized count]) represents.count⟩
  | clear => exact ⟨represents.clear,rfl⟩

theorem run_represents (bits : Nat) (calls : List Call) (spares : Always callOnSet (Spares (2 ^ bits)) calls ∅) :
    Represents bits (run call calls (new (2 ^ bits))).state (run callOnSet calls ∅).state ∧
      (run call calls (new (2 ^ bits))).events = (run callOnSet calls ∅).events :=
  run_simulates call callOnSet (Represents bits) call_simulates calls _ _ spares (new_represents bits)

/-- The table is what these calls made of a new one of the broker's size, they kept a slot
to spare, and fewer than `bound` ids are left in it. -/
structure Follows (set : MessageIdSet) (log : List Call) (bound : Nat) : Prop where
  state : set = (run call log (new dedupSetCapacity)).state
  spares : Always callOnSet (Spares dedupSetCapacity) log ∅
  few : (run callOnSet log ∅).state.card < bound

theorem Follows.represents (follows : Follows set log bound) :
    Represents 15 set (run callOnSet log ∅).state := by
  have reached := (run_represents 15 log follows.spares).1
  rw [follows.state]
  exact reached

theorem Follows.next (follows : Follows set log bound) (next : Call) (later : Nat)
    (spares : Spares dedupSetCapacity (run callOnSet log ∅).state next)
    (few : (callOnSet next (run callOnSet log ∅).state).state.card < later) :
    Follows (call next set).state (log ++ [next]) later where
  state := by rw [run_snoc,← follows.state]
  spares := (always_append callOnSet log [next] ∅).mpr ⟨follows.spares,spares,trivial⟩
  few := by rw [run_snoc]; exact few

theorem Follows.contains (follows : Follows set log bound) (proper : id ≠ .vacant) :
    Follows set (log ++ [.contains id]) bound :=
  follows.next (.contains id) bound proper follows.few

theorem Follows.size (follows : Follows set log bound) : Follows set (log ++ [.size]) bound :=
  follows.next .size bound trivial follows.few

theorem Follows.clear (follows : Follows set log bound) (positive : 0 < bound) :
    Follows set.clear (log ++ [.clear]) bound :=
  follows.next .clear bound trivial positive

theorem Follows.insert (follows : Follows set log bound) (proper : id ≠ .vacant)
    (room : bound < dedupSetCapacity) : Follows (set.insert id) (log ++ [.insert id]) (bound + 1) := by
  have most := Finset.card_insert_le id (run callOnSet log ∅).state
  have few := follows.few
  apply follows.next (.insert id)
  · exact ⟨proper,by omega⟩
  · change (Insert.insert id (run callOnSet log ∅).state).card < bound + 1
    omega

theorem Follows.within (follows : Follows set log bound) {least : Nat} (below : set.count < least) :
    Follows set log least :=
  ⟨follows.state,follows.spares,follows.represents.count ▸ below⟩

end MessageIdSet

namespace MessageHistory

open MessageIdSet

/-- The history with the calls made so far on each of its two tables. -/
structure Logged where
  history : MessageHistory
  current : List Call
  previous : List Call

def Logged.new : Logged := ⟨MessageHistory.new,[],[]⟩

/-- `isDuplicate` once more, with the calls it makes. -/
def Logged.isDuplicate (uuid : Str) (l : Logged) : Logged :=
  let id := dedupId uuid
  let history := (l.history.isDuplicate uuid).1
  if l.history.current.contains id then ⟨history,l.current ++ [.contains id],l.previous⟩
  else if l.history.previous.contains id then
    ⟨history,l.current ++ [.contains id],l.previous ++ [.contains id]⟩
  else
    let current := l.current ++ [.contains id] ++ [.insert id] ++ [.size]
    let previous := l.previous ++ [.contains id]
    if (l.history.current.insert id).count ≥ maxHistorySize then
      -- the two sets are swapped before the older one is emptied
      ⟨history,previous ++ [.clear],current⟩
    else ⟨history,current,previous⟩

/-- Each table follows its own log, the current one below the size that rotates. -/
structure Logged.Faithful (l : Logged) : Prop where
  current : Follows l.history.current l.current maxHistorySize
  previous : Follows l.history.previous l.previous (maxHistorySize + 1)

variable {l : Logged}

theorem Logged.new_faithful : Logged.new.Faithful :=
  ⟨⟨rfl,trivial,by decide⟩,⟨rfl,trivial,by decide⟩⟩

theorem Logged.Faithful.check (faithful : l.Faithful) (uuid : Str) : (l.isDuplicate uuid).Faithful := by
  have proper := dedupId_ne_vacant uuid
  have asked := faithful.current.contains proper
  have askedPrevious := faithful.previous.contains proper
  have grown := (asked.insert proper (by decide)).size
  unfold Logged.isDuplicate MessageHistory.isDuplicate
  dsimp only
  cases seen : l.history.current.contains (dedupId uuid) with
  | true =>
    simp only [Bool.true_or,if_true]
    exact ⟨asked,faithful.previous⟩
  | false =>
    cases remembered : l.history.previous.contains (dedupId uuid) with
    | true =>
      simp only [Bool.or_true,Bool.false_eq_true,if_false,if_true]
      exact ⟨asked,askedPrevious⟩
    | false =>
      simp only [Bool.or_self,Bool.false_eq_true,if_false]
      split
      · exact ⟨(askedPrevious.clear (by decide)).within (by decide : 0 < maxHistorySize),grown⟩
      next room => exact ⟨grown.within (Nat.lt_of_not_le room),askedPrevious⟩

theorem Logged.isDuplicate_history (uuid : Str) (l : Logged) :
    (l.isDuplicate uuid).history = (MessageHistory.check uuid l.history).state := by
  unfold Logged.isDuplicate
  dsimp only
  split
  · rfl
  · split
    · rfl
    · split <;> rfl

/-- The broker's history after these checks, with the calls its tables have seen. -/
def logged (uuids : List Str) : Logged := uuids.foldl (fun l uuid => l.isDuplicate uuid) Logged.new

theorem logged_faithful (uuids : List Str) : (logged uuids).Faithful :=
  List.foldlRecOn uuids _ Logged.new_faithful fun _ faithful uuid _ => faithful.check uuid

theorem logged_history (uuids : List Str) : (logged uuids).history = (run MessageHistory.check uuids new).state := by
  induction uuids using List.reverseRecOn with
  | nil => rfl
  | append_singleton uuids uuid ih =>
    rw [run_snoc,← ih,← Logged.isDuplicate_history,logged,List.foldl_append]
    rfl

/-- Calls that leave a slot to spare are answered as on a set of ids, each probe ending; and
the two tables of a broker see no others, whatever uuids it is asked about. -/
theorem id_set_is_finite_set :
    (∀ bits calls, Always callOnSet (Spares (2 ^ bits)) calls ∅ →
      (run call calls (.new (2 ^ bits))).events = (run callOnSet calls ∅).events ∧
        Answer.circling ∉ (run call calls (.new (2 ^ bits))).events) ∧
    ∀ uuids : List Str,
      (logged uuids).history = (run MessageHistory.check uuids new).state ∧
      (logged uuids).history.current = (run call (logged uuids).current (.new dedupSetCapacity)).state ∧
      (logged uuids).history.previous = (run call (logged uuids).previous (.new dedupSetCapacity)).state ∧
      Always callOnSet (Spares dedupSetCapacity) (logged uuids).current ∅ ∧
      Always callOnSet (Spares dedupSetCapacity) (logged uuids).previous ∅ := by
  refine ⟨fun bits calls spares => ?_,fun uuids => ?_⟩
  · have answers := (run_represents bits calls spares).2
    refine ⟨answers,?_⟩
    rw [answers]
    exact run_returns calls ∅
  · have faithful := logged_faithful uuids
    exact ⟨logged_history uuids,faithful.current.state,faithful.previous.state,faithful.current.spares,
      faithful.previous.spares⟩

end MessageHistory

end Wisp
