import Mathlib.Data.Fintype.Card
import Mathlib.Logic.Relation
import Mathlib.Order.WellFounded

/-! A property that a node has on its own account or from a predecessor. Where no
cycle leads to a node, the property is traced back to a source; along any path it
is handed on. -/
namespace Ancestry

open Relation

variable {α : Type} {r : α → α → Prop} {carried source : α → Prop}

/-- Every node upstream of `b` is free of cycles, so going back from `b` comes to an end. -/
theorem wellFounded_upstream [Finite α] {b : α} (acyclic : ∀ a, ReflTransGen r a b → ¬TransGen r a a) :
    WellFounded fun a c => r a c ∧ ReflTransGen r c b := by
  have upstream {a c : α} (path : TransGen (fun a c => r a c ∧ ReflTransGen r c b) a c) :
      TransGen r a c ∧ ReflTransGen r c b := by
    induction path with
    | single edge => exact ⟨.single edge.1,edge.2⟩
    | tail path edge ih => exact ⟨ih.1.tail edge.1,edge.2⟩
  have : Std.Irrefl (TransGen fun a c => r a c ∧ ReflTransGen r c b) :=
    ⟨fun a path => acyclic a (upstream path).2 (upstream path).1⟩
  have founded := Finite.wellFounded_of_trans_of_irrefl (TransGen fun a c => r a c ∧ ReflTransGen r c b)
  exact founded.mono fun _ _ edge => .single edge

theorem traced [Finite α] (back : ∀ b, carried b → source b ∨ ∃ a, r a b ∧ carried a) {b : α}
    (acyclic : ∀ a, ReflTransGen r a b → ¬TransGen r a a) (holds : carried b) :
    ∃ a, ReflTransGen r a b ∧ source a := by
  suffices each : ∀ c, ReflTransGen r c b → carried c → ∃ a, ReflTransGen r a b ∧ source a from
    each b .refl holds
  intro c
  induction c using (wellFounded_upstream acyclic).induction with
  | _ c ih =>
    intro path holds
    rcases back c holds with own | ⟨a,edge,holds⟩
    · exact ⟨c,path,own⟩
    · exact ih a ⟨edge,path⟩ (.head edge path) holds

theorem handed_on (forth : ∀ a b, r a b → carried a → carried b) {a b : α} (path : ReflTransGen r a b)
    (holds : carried a) : carried b := by
  induction path with
  | refl => exact holds
  | tail _ edge ih => exact forth _ _ edge ih

theorem acyclic_of_rank {rank : α → Nat} (rises : ∀ a b, r a b → rank a < rank b) (a : α) : ¬TransGen r a a := by
  have climbs {a b : α} (path : TransGen r a b) : rank a < rank b := by
    induction path with
    | single edge => exact rises _ _ edge
    | tail _ edge ih => exact ih.trans (rises _ _ edge)
  exact fun cycle => (climbs cycle).false

end Ancestry
