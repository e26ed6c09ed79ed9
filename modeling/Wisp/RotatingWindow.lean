import Mathlib.Data.List.Dedup
import Mathlib.Data.List.Nodup

/-! A bounded memory of the most recent arrivals kept as two generations: new
elements join the current one, and when it is full it becomes the previous one
and the older generation is forgotten wholesale. Histories list the newest first. -/
namespace RotatingWindow

structure Window (α : Type) where
  current : List α
  previous : List α

variable {α : Type}

def empty : Window α := ⟨[],[]⟩

def Window.Remembers (w : Window α) (x : α) : Prop := x ∈ w.current ∨ x ∈ w.previous

def Window.enter (limit : Nat) (x : α) (w : Window α) : Window α :=
  if limit ≤ w.current.length + 1 then ⟨[],x :: w.current⟩ else ⟨x :: w.current,w.previous⟩

/-- No element repeats one of the `limit` elements entered just before it. -/
def Spaced (limit : Nat) : List α → Prop
  | [] => True
  | x :: older => x ∉ older.take limit ∧ Spaced limit older

/-- The window holds a prefix of the history, at least `limit` long once that many
elements have been entered. -/
structure Recalls (limit : Nat) (history : List α) (w : Window α) : Prop where
  room : w.current.length < limit
  held : ∃ older, history = w.current ++ (w.previous ++ older) ∧
    (w.previous.length = limit ∨ w.previous = [] ∧ older = [])
  spaced : Spaced limit history

theorem empty_recalls (limit : Nat) (positive : 0 < limit) :
    Recalls limit [] (empty : Window α) :=
  ⟨positive,⟨[],rfl,.inr ⟨rfl,rfl⟩⟩,trivial⟩

theorem Recalls.recent (recalls : Recalls limit history w) (x : α)
    (member : x ∈ history.take limit) : w.Remembers x := by
  obtain ⟨older,rfl,full | ⟨none,nothing⟩⟩ := recalls.held
  · rw [← List.append_assoc] at member
    have shorter : limit ≤ (w.current ++ w.previous).length := by
      rw [List.length_append]; omega
    rw [List.take_append_of_le_length shorter] at member
    exact List.mem_append.mp (List.mem_of_mem_take member)
  · rw [none,nothing] at member
    exact .inl (by simpa using List.mem_of_mem_take member)

theorem Recalls.in_history (recalls : Recalls limit history w) (x : α)
    (remembered : w.Remembers x) : x ∈ history := by
  obtain ⟨older,rfl,_⟩ := recalls.held
  rcases remembered with current | previous
  · exact List.mem_append_left _ current
  · exact List.mem_append_right _ (List.mem_append_left _ previous)

/-- Admitting an element the window does not hold extends the history by it. -/
theorem Recalls.enter (recalls : Recalls limit history w) (x : α)
    (fresh : ¬w.Remembers x) : Recalls limit (x :: history) (w.enter limit x) := by
  have positive : 0 < limit := Nat.lt_of_le_of_lt (Nat.zero_le _) recalls.room
  have spaced : Spaced limit (x :: history) :=
    ⟨fun member => fresh (recalls.recent x member),recalls.spaced⟩
  obtain ⟨older,rfl,shape⟩ := recalls.held
  unfold Window.enter
  split
  next full =>
    refine ⟨positive,⟨w.previous ++ older,by simp,.inl ?_⟩,spaced⟩
    have := recalls.room
    simp only [List.length_cons]; omega
  next below =>
    refine ⟨by simpa using Nat.lt_of_not_le below,⟨older,by simp,?_⟩,spaced⟩
    exact shape

/-- The current generation counts the arrivals since the last rotation. -/
theorem Recalls.enter_length (recalls : Recalls limit history w)
    (aligned : w.current.length = history.length % limit) (x : α) :
    (w.enter limit x).current.length = (x :: history).length % limit := by
  have room := recalls.room
  have next : (x :: history).length % limit = (w.current.length + 1) % limit := by
    rw [aligned,Nat.mod_add_mod,List.length_cons]
  rw [next]
  unfold Window.enter
  split
  next full =>
    have turn : w.current.length + 1 = limit := by omega
    rw [turn,Nat.mod_self,List.length_nil]
  next below => rw [Nat.mod_eq_of_lt (by omega),List.length_cons]

/-- The window is the recent stretch of the history that its length tells. -/
theorem Recalls.remembers_iff (recalls : Recalls limit history w)
    (aligned : w.current.length = history.length % limit) (x : α) :
    w.Remembers x ↔ x ∈ history.take (min history.length (limit + history.length % limit)) := by
  rw [← aligned]
  obtain ⟨older,rfl,full | ⟨none,nothing⟩⟩ := recalls.held
  · have stretch : min (w.current ++ (w.previous ++ older)).length (limit + w.current.length) =
        (w.current ++ w.previous).length := by
      simp only [List.length_append]
      omega
    rw [stretch,← List.append_assoc,List.take_left,List.mem_append,Window.Remembers]
  · have whole : min w.current.length (limit + w.current.length) = w.current.length := by omega
    simp only [Window.Remembers,none,nothing,List.append_nil,List.not_mem_nil,or_false]
    rw [whole,List.take_length]

theorem Spaced.tail (newer : List α) (spaced : Spaced limit (newer ++ older)) : Spaced limit older := by
  induction newer with
  | nil => exact spaced
  | cons x rest ih => exact ih spaced.2

/-- Up to `limit + 1` consecutive elements are pairwise different. -/
theorem Spaced.block_nodup (older : List α) (spaced : Spaced limit (block ++ older))
    (short : block.length ≤ limit + 1) : block.Nodup := by
  induction block with
  | nil => exact List.nodup_nil
  | cons x rest ih =>
    simp only [List.length_cons] at short
    rw [List.cons_append] at spaced
    refine List.nodup_cons.mpr ⟨fun repeated => spaced.1 ?_,ih spaced.2 (by omega)⟩
    rw [List.take_append,List.take_of_length_le (by omega)]
    exact List.mem_append_left _ repeated

variable [DecidableEq α]

/-- When fewer than `limit` different other elements came after `x`, fewer than
`limit` elements did: a repetition needs `limit` different ones in between. -/
theorem Spaced.few_since (spaced : Spaced limit (newer ++ x :: older : List α))
    (few : (newer.filter (· ≠ x)).dedup.length < limit) : newer.length < limit := by
  by_contra long
  -- The `limit` elements right after `x`, together with `x`, form one block.
  have cut : newer = newer.take (newer.length - limit) ++ newer.drop (newer.length - limit) :=
    (List.take_append_drop _ _).symm
  have size : (newer.drop (newer.length - limit)).length = limit := by
    rw [List.length_drop]; omega
  have block : (newer.drop (newer.length - limit) ++ [x]).Nodup := by
    have since : Spaced limit ((newer.drop (newer.length - limit) ++ [x]) ++ older) := by
      rw [List.append_assoc]
      apply Spaced.tail (newer.take (newer.length - limit))
      rw [← List.append_assoc,← cut]
      exact spaced
    exact since.block_nodup older (by simp [size])
  have apart : x ∉ newer.drop (newer.length - limit) := by
    intro member
    exact (List.nodup_append.mp block).2.2 x member x (by simp) rfl
  have inside : newer.drop (newer.length - limit) ⊆ (newer.filter (· ≠ x)).dedup := by
    intro y member
    rw [List.mem_dedup,List.mem_filter]
    refine ⟨List.mem_of_mem_drop member,?_⟩
    simp only [ne_eq,decide_eq_true_eq]
    rintro rfl
    exact apart member
  have bound := List.Nodup.length_le_of_subset (List.nodup_append.mp block).1 inside
  omega

/-- Such an element is still remembered. -/
theorem Recalls.remembers_since (recalls : Recalls limit (newer ++ x :: older : List α) w)
    (few : (newer.filter (· ≠ x)).dedup.length < limit) : w.Remembers x := by
  have short := recalls.spaced.few_since few
  apply recalls.recent
  rw [List.take_append,List.take_of_length_le (Nat.le_of_lt short)]
  refine List.mem_append_right _ ?_
  obtain ⟨k,rest⟩ : ∃ k, limit - newer.length = k + 1 := ⟨limit - newer.length - 1,by omega⟩
  rw [rest]
  exact List.mem_cons_self

end RotatingWindow
