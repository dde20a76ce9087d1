import Mathlib

/-! # Resources held by one owner each

Every holder has room for one resource. A live resource is either held, by one holder
only, or loose: created, and taken by no holder yet. A holder that lets go of its
resource ends the life of it.
-/

namespace Ownership

universe u v

variable {Holder : Type u} {Resource : Type v}

/-- The live resources are those that are held, each of them once, and the loose ones. -/
structure Owned (holds : Holder → Option Resource) (live loose : Finset Resource) : Prop where
  live_of_holds : ∀ {holder resource}, holds holder = some resource → resource ∈ live
  live_of_loose : ∀ {resource}, resource ∈ loose → resource ∈ live
  unique : ∀ {holder other resource}, holds holder = some resource →
    holds other = some resource → other = holder
  free : ∀ {holder resource}, resource ∈ loose → holds holder ≠ some resource
  covered : ∀ {resource}, resource ∈ live →
    resource ∈ loose ∨ ∃ holder, holds holder = some resource

/-- Nothing is owned at the start. -/
theorem Owned.empty : Owned (fun _ : Holder => (none : Option Resource)) ∅ ∅ where
  live_of_holds := nofun
  live_of_loose member := absurd member (Finset.notMem_empty _)
  unique := nofun
  free member := absurd member (Finset.notMem_empty _)
  covered member := absurd member (Finset.notMem_empty _)

variable {holds : Holder → Option Resource} {live loose : Finset Resource}
variable {holder : Holder} {resource : Resource}

/-- The live resources are at most the loose ones and one for each holder. -/
theorem Owned.card_live_le (owned : Owned holds live loose) (holders : Finset Holder)
    (within : ∀ holder, holder ∉ holders → holds holder = none) :
    live.card ≤ loose.card + holders.card := by
  classical
  have spread : live ⊆ loose ∪ (holders.image holds).eraseNone := by
    intro resource member
    rcases owned.covered member with unheld | ⟨holder, held⟩
    · exact Finset.mem_union_left _ unheld
    · have listed : holder ∈ holders := by
        by_contra outside
        rw [within holder outside] at held
        cases held
      exact Finset.mem_union_right _
        (Finset.mem_eraseNone.mpr (Finset.mem_image.mpr ⟨holder, listed, held⟩))
  have named : (holders.image holds).eraseNone.card ≤ holders.card :=
    (Finset.card_eraseNone_le _).trans Finset.card_image_le
  exact (Finset.card_le_card spread).trans
    ((Finset.card_union_le _ _).trans (Nat.add_le_add_left named _))

variable [DecidableEq Resource]

/-- A fresh resource is loose. -/
theorem Owned.create (owned : Owned holds live loose) (fresh : resource ∉ live) :
    Owned holds (insert resource live) (insert resource loose) where
  live_of_holds held := Finset.mem_insert_of_mem (owned.live_of_holds held)
  live_of_loose member := by
    rcases Finset.mem_insert.mp member with rfl | earlier
    · exact Finset.mem_insert_self _ _
    · exact Finset.mem_insert_of_mem (owned.live_of_loose earlier)
  unique := owned.unique
  free member held := by
    rcases Finset.mem_insert.mp member with rfl | earlier
    · exact fresh (owned.live_of_holds held)
    · exact owned.free earlier held
  covered member := by
    rcases Finset.mem_insert.mp member with rfl | earlier
    · exact Or.inl (Finset.mem_insert_self _ _)
    · exact (owned.covered earlier).imp_left Finset.mem_insert_of_mem

variable [DecidableEq Holder]

/-- An empty holder takes a loose resource. -/
theorem Owned.take (owned : Owned holds live loose) (room : holds holder = none)
    (unheld : resource ∈ loose) :
    Owned (Function.update holds holder (some resource)) live (loose.erase resource) where
  live_of_holds {other kept} held := by
    rcases eq_or_ne other holder with rfl | apart
    · rw [Function.update_self, Option.some.injEq] at held
      exact held ▸ owned.live_of_loose unheld
    · rw [Function.update_of_ne apart] at held
      exact owned.live_of_holds held
  live_of_loose member := owned.live_of_loose (Finset.mem_of_mem_erase member)
  unique {one other kept} held also := by
    rcases eq_or_ne one holder with rfl | apart
    · rw [Function.update_self, Option.some.injEq] at held
      subst held
      by_contra apart
      rw [Function.update_of_ne apart] at also
      exact owned.free unheld also
    · rw [Function.update_of_ne apart] at held
      rcases eq_or_ne other holder with rfl | separate
      · rw [Function.update_self, Option.some.injEq] at also
        subst also
        exact absurd held (owned.free unheld)
      · rw [Function.update_of_ne separate] at also
        exact owned.unique held also
  free {other kept} member held := by
    rcases eq_or_ne other holder with rfl | apart
    · rw [Function.update_self, Option.some.injEq] at held
      exact Finset.ne_of_mem_erase member held.symm
    · rw [Function.update_of_ne apart] at held
      exact owned.free (Finset.mem_of_mem_erase member) held
  covered {kept} member := by
    rcases eq_or_ne kept resource with rfl | apart
    · exact Or.inr ⟨holder, Function.update_self _ _ _⟩
    · rcases owned.covered member with unheld | ⟨other, held⟩
      · exact Or.inl (Finset.mem_erase_of_ne_of_mem apart unheld)
      · refine Or.inr ⟨other, ?_⟩
        rw [Function.update_of_ne, held]
        rintro rfl
        rw [room] at held
        cases held

/-- A holder lets go of its resource, whose life ends. -/
theorem Owned.release (owned : Owned holds live loose) (held : holds holder = some resource) :
    Owned (Function.update holds holder none) (live.erase resource) loose where
  live_of_holds {other kept} keeps := by
    rcases eq_or_ne other holder with rfl | apart
    · rw [Function.update_self] at keeps
      cases keeps
    · rw [Function.update_of_ne apart] at keeps
      refine Finset.mem_erase_of_ne_of_mem ?_ (owned.live_of_holds keeps)
      rintro rfl
      exact apart (owned.unique held keeps)
  live_of_loose {kept} member := by
    refine Finset.mem_erase_of_ne_of_mem ?_ (owned.live_of_loose member)
    rintro rfl
    exact owned.free member held
  unique {one other kept} keeps also := by
    rcases eq_or_ne one holder with rfl | apart
    · rw [Function.update_self] at keeps
      cases keeps
    · rcases eq_or_ne other holder with rfl | separate
      · rw [Function.update_self] at also
        cases also
      · rw [Function.update_of_ne apart] at keeps
        rw [Function.update_of_ne separate] at also
        exact owned.unique keeps also
  free {other kept} member keeps := by
    rcases eq_or_ne other holder with rfl | apart
    · rw [Function.update_self] at keeps
      cases keeps
    · rw [Function.update_of_ne apart] at keeps
      exact owned.free member keeps
  covered {kept} member := by
    rcases owned.covered (Finset.mem_of_mem_erase member) with unheld | ⟨other, keeps⟩
    · exact Or.inl unheld
    · refine Or.inr ⟨other, ?_⟩
      rw [Function.update_of_ne, keeps]
      rintro rfl
      rw [held, Option.some.injEq] at keeps
      exact Finset.ne_of_mem_erase member keeps.symm

end Ownership
