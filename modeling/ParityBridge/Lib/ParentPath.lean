import Mathlib.Logic.Relation
import Mathlib.Data.Nat.Notation

/-! # Paths up a parent map

    A partial map from a node to its parent, as from a header's hash to its
    parent's hash in a chain of headers.  From a node, following parent
    links arrives at a given node `t`, stops at a node without a parent, or
    runs in a cycle.

    * `Reaches P t x`: following links from `x` arrives at `t`;
    * `OnPath P t x h`: `h` is a node whose link is followed on the way,
      that is a node of the path from `x` before it meets `t`;
    * `Acyclic P`: no node is its own proper ancestor.

    Paths are closed under taking a later start (`OnPath.trans`), and on an
    acyclic map a node is never on the path from its parent
    (`Acyclic.not_onPath_parent`): what a walk that shares its visited
    nodes with earlier walks needs. -/

namespace ParentPath

variable {α : Type} (P : α → Option α) (t : α)

/-- Following parent links from a node arrives at `t`. -/
inductive Reaches : α → Prop
  | target : Reaches t
  | parent {x y : α} : x ≠ t → P x = some y → Reaches y → Reaches x

/-- `OnPath x h`: the link of `h` is followed on the way from `x` towards
    `t`. -/
inductive OnPath : α → α → Prop
  | start {x : α} : x ≠ t → OnPath x x
  | parent {x y h : α} : x ≠ t → P x = some y → OnPath y h → OnPath x h

/-- No node is its own proper ancestor. -/
def Acyclic : Prop :=
  ∀ x, ¬Relation.TransGen (fun a b => P a = some b) x x

variable {P t} {x y h w : α}

/-- A node other than `t` that reaches `t` has a parent that reaches it. -/
theorem Reaches.of_ne (hreach : Reaches P t x) (hx : x ≠ t) :
    ∃ y, P x = some y ∧ Reaches P t y := by
  cases hreach with
  | target => exact absurd rfl hx
  | parent _ hparent hy => exact ⟨_, hparent, hy⟩

theorem OnPath.start_ne (hpath : OnPath P t x h) : x ≠ t := by
  cases hpath with
  | start hx => exact hx
  | parent hx _ _ => exact hx

theorem not_onPath_target : ¬OnPath P t t h :=
  fun hpath => hpath.start_ne rfl

/-- The path from a node is the node, then the path from its parent. -/
theorem onPath_iff_of_parent (hx : x ≠ t) (hparent : P x = some y) :
    OnPath P t x h ↔ h = x ∨ OnPath P t y h := by
  constructor
  · intro hpath
    cases hpath with
    | start _ => exact .inl rfl
    | parent _ hparent' hy =>
        rw [hparent] at hparent'
        cases hparent'
        exact .inr hy
  · rintro (rfl | hy)
    · exact .start hx
    · exact .parent hx hparent hy

/-- **PATHS ARE CLOSED.** The path from a node of a path is part of it. -/
theorem OnPath.trans (hxh : OnPath P t x h) (hhw : OnPath P t h w) : OnPath P t x w := by
  induction hxh with
  | start _ => exact hhw
  | parent hx hparent _ ih => exact .parent hx hparent (ih hhw)

/-- A node of a path from a node that reaches `t` reaches `t`. -/
theorem Reaches.of_onPath (hreach : Reaches P t x) (hpath : OnPath P t x h) : Reaches P t h := by
  induction hpath with
  | start _ => exact hreach
  | parent hx hparent _ ih =>
      obtain ⟨y', hparent', hy'⟩ := hreach.of_ne hx
      rw [hparent] at hparent'
      cases hparent'
      exact ih hy'

/-- A path follows parent links. -/
theorem OnPath.reflTransGen (hpath : OnPath P t x h) :
    Relation.ReflTransGen (fun a b => P a = some b) x h := by
  induction hpath with
  | start _ => exact .refl
  | parent _ hparent _ ih => exact Relation.ReflTransGen.head hparent ih

/-- **NO WAY BACK.** On an acyclic map a node is not on the path from its
    parent. -/
theorem Acyclic.not_onPath_parent (hacyclic : Acyclic P) (hparent : P x = some y) :
    ¬OnPath P t y x := fun hpath =>
  hacyclic x (Relation.TransGen.head' hparent hpath.reflTransGen)

/-- A map whose links go down a rank is acyclic. -/
theorem Acyclic.of_rank (rank : α → ℕ) (hrank : ∀ a b, P a = some b → rank b < rank a) :
    Acyclic P := by
  intro x hcycle
  -- along a chain of links the rank goes down at every link
  have hdown : ∀ a b, Relation.TransGen (fun a b => P a = some b) a b → rank b < rank a := by
    intro a b hab
    induction hab with
    | single hlink => exact hrank _ _ hlink
    | tail _ hlink ih => exact Nat.lt_trans (hrank _ _ hlink) ih
  exact Nat.lt_irrefl _ (hdown x x hcycle)

end ParentPath
