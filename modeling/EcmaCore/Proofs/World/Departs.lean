import EcmaCore.World.Collect
import Mathlib.Algebra.BigOperators.Group.Finset.Basic
import Mathlib.Algebra.GroupWithZero.Nat
import Mathlib.Algebra.Order.BigOperators.Group.Finset

/-!
# Which entities depart

An entity departs if nothing keeps it: neither the world nor the embedding program
holds on to it, and whatever refers to it departs. This is the least such notion,
so a cycle of references keeps itself. `World.unreferenced` finds the entities that
depart by counting references: it starts with those that have none and takes the
references of each entity that it finds out of the count.

## Main results

* `mem_unreferenced_iff`: counting references finds exactly the entities that
  depart.
* `Departs.mono`: the more is held on to, the less departs.
-/

namespace EcmaCore

/-- What nothing keeps while the embedding program holds on to `roots`. -/
inductive World.Departs {σ : Type} (w : World σ) (roots : List Entity) : Entity → Prop
  | intro {e : Entity} (hentity : e ∈ w.entities) (hown : e ∉ w.ownRoots) (hroots : e ∉ roots)
      (hreferrers : ∀ x ∈ w.entities, e ∈ w.references x → Departs w roots x) : Departs w roots e

/-! ## Counting references -/

namespace Census

variable {c : Census} {e : Entity}

/-- A census has a count for an entity. -/
def Has (c : Census) : Entity → Prop
  | .object o => o.index < c.objects.size
  | .scope s => s.index < c.scopes.size
  | .module m => m.index < c.modules.size

theorem has_modify (c : Census) (f : Nat → Nat) (e other : Entity) :
    (c.modify f other).Has e ↔ c.Has e := by
  cases other <;> cases e <;> simp [Has, modify]

theorem count_of_not_has (h : ¬c.Has e) : c.count e = 0 := by
  cases e <;> simp_all [Has, count, Array.getD_eq_getD_getElem?]

theorem getD_modify (xs : Array Nat) (f : Nat → Nat) (i j : Nat) (h : j < xs.size) :
    (xs.modify i f).getD j 0 = if i = j then f (xs.getD j 0) else xs.getD j 0 := by
  simp only [Array.getD_eq_getD_getElem?, Array.getElem?_modify]
  split
  · next heq =>
    subst heq
    simp [h]
  · rfl

/-- Changing the count of an entity changes no other one. -/
theorem count_modify (f : Nat → Nat) (other : Entity) (h : c.Has e) :
    (c.modify f other).count e = if other = e then f (c.count e) else c.count e := by
  cases other with
  | object o =>
      cases e with
      | object o' =>
          obtain ⟨i⟩ := o
          obtain ⟨j⟩ := o'
          simpa [count, modify] using getD_modify c.objects f i j h
      | scope | module => simp [count, modify]
  | scope s =>
      cases e with
      | scope s' =>
          obtain ⟨i⟩ := s
          obtain ⟨j⟩ := s'
          simpa [count, modify] using getD_modify c.scopes f i j h
      | object | module => simp [count, modify]
  | module m =>
      cases e with
      | module m' =>
          obtain ⟨i⟩ := m
          obtain ⟨j⟩ := m'
          simpa [count, modify] using getD_modify c.modules f i j h
      | object | scope => simp [count, modify]

/-- Taking a reference out lowers the count of its entity, as far as it goes. -/
theorem count_remove (state : Census × List Entity) (r e : Entity) :
    (remove state r).1.count e = if r = e then state.1.count e - 1 else state.1.count e := by
  by_cases h : state.1.Has e
  · exact count_modify _ r h
  · have hafter : ¬(remove state r).1.Has e := fun hhas => h ((has_modify _ _ e r).1 hhas)
    rw [count_of_not_has h, count_of_not_has hafter]
    split <;> rfl

theorem has_addAll (c : Census) (references : List Entity) (e : Entity) :
    (c.addAll references).Has e ↔ c.Has e := by
  induction references generalizing c with
  | nil => rfl
  | cons r rest ih => exact (ih _).trans (has_modify c _ e r)

/-- Entering references adds to a count as often as they mention the entity. -/
theorem count_addAll (references : List Entity) (h : c.Has e) :
    (c.addAll references).count e = c.count e + references.count e := by
  induction references generalizing c with
  | nil => rfl
  | cons r rest ih =>
      show ((c.modify (· + 1) r).addAll rest).count e = _
      rw [ih ((has_modify c _ e r).2 h), count_modify _ r h, List.count_cons]
      by_cases hr : r = e
      · simp [hr]
        omega
      · simp [hr]

theorem count_foldl_remove (references : List Entity) (state : Census × List Entity) (e : Entity) :
    (references.foldl remove state).1.count e = state.1.count e - references.count e := by
  induction references generalizing state with
  | nil => rfl
  | cons r rest ih =>
      rw [List.foldl_cons, ih, count_remove, List.count_cons]
      by_cases hr : r = e
      · simp [hr]
        omega
      · simp [hr]

/-- An entity is listed when its count comes down to zero. -/
theorem mem_foldl_remove (references : List Entity) (state : Census × List Entity) (e : Entity) :
    e ∈ (references.foldl remove state).2 ↔
      e ∈ state.2 ∨ 0 < state.1.count e ∧ state.1.count e ≤ references.count e := by
  induction references generalizing state with
  | nil =>
      simp
      omega
  | cons r rest ih =>
      rw [List.foldl_cons, ih, count_remove, List.count_cons]
      by_cases hr : r = e
      · subst hr
        by_cases hone : state.1.count r = 1
        · simp [remove, hone]
        · simp only [remove, hone, if_true, if_false, beq_self_eq_true]
          exact or_congr_right (by omega)
      · by_cases hone : state.1.count r = 1
        · simp [remove, hone, hr, Ne.symm hr]
        · simp [remove, hone, hr]

/-- No entity is listed twice. -/
theorem nodup_foldl_remove (references : List Entity) (state : Census × List Entity)
    (hnodup : state.2.Nodup) (hzero : ∀ e ∈ state.2, state.1.count e = 0) :
    (references.foldl remove state).2.Nodup := by
  induction references generalizing state with
  | nil => exact hnodup
  | cons r rest ih =>
      refine ih _ ?_ ?_
      · unfold remove
        dsimp only
        split
        · next hone =>
          refine List.nodup_cons.2 ⟨fun hmem => ?_, hnodup⟩
          rw [hzero r hmem] at hone
          cases hone
        · exact hnodup
      · intro e he
        have hcount := count_remove state r e
        by_cases hr : r = e
        · subst hr
          rw [hcount, if_pos rfl]
          unfold remove at he
          dsimp only at he
          split at he
          · next hone => rw [hone]
          · rw [hzero r he]
        · rw [hcount, if_neg hr]
          unfold remove at he
          dsimp only at he
          split at he
          · exact hzero e ((List.mem_cons.1 he).resolve_left (Ne.symm hr))
          · exact hzero e he

end Census

namespace World

variable {σ : Type} {w w' : World σ} {roots roots' : List Entity} {e : Entity}

theorem mem_entities_iff (w : World σ) (e : Entity) :
    e ∈ w.entities ↔
      (Census.empty w.objects.size w.scopes.size w.modules.size).Has e := by
  cases e with
  | object o =>
      obtain ⟨i⟩ := o
      simp [entities, Census.Has, Census.empty]
  | scope s =>
      obtain ⟨i⟩ := s
      simp [entities, Census.Has, Census.empty]
  | module m =>
      obtain ⟨i⟩ := m
      simp [entities, Census.Has, Census.empty]

theorem nodup_entities (w : World σ) : w.entities.Nodup := by
  have hrange {f : Nat → Entity} (hf : Function.Injective f) (n : Nat) :
      ((List.range n).map f).Nodup := List.nodup_range.map hf
  have hobjects := hrange (f := fun i => .object ⟨i⟩) (fun _ _ h => by cases h; rfl) w.objects.size
  have hscopes := hrange (f := fun i => .scope ⟨i⟩) (fun _ _ h => by cases h; rfl) w.scopes.size
  have hmodules := hrange (f := fun i => .module ⟨i⟩) (fun _ _ h => by cases h; rfl) w.modules.size
  refine List.nodup_append.2 ⟨List.nodup_append.2 ⟨hobjects, hscopes, ?_⟩, hmodules, ?_⟩
  · simp
  · simp only [List.mem_append, List.mem_map]
    rintro _ (⟨i, _, rfl⟩ | ⟨i, _, rfl⟩) _ ⟨j, _, rfl⟩ <;> simp

theorem has_foldl_addAll (lists : List (List Entity)) (c : Census) (e : Entity) :
    (lists.foldl Census.addAll c).Has e ↔ c.Has e := by
  induction lists generalizing c with
  | nil => rfl
  | cons references rest ih => exact (ih _).trans (Census.has_addAll c references e)

theorem count_foldl_addAll (lists : List (List Entity)) {c : Census} (h : c.Has e) :
    (lists.foldl Census.addAll c).count e = c.count e + (lists.map (·.count e)).sum := by
  induction lists generalizing c with
  | nil => rfl
  | cons references rest ih =>
      rw [List.foldl_cons, ih ((Census.has_addAll c references e).2 h), Census.count_addAll _ h,
        List.map_cons, List.sum_cons, Nat.add_assoc]

theorem has_census (w : World σ) (roots : List Entity) (e : Entity) :
    (w.census roots).Has e ↔ e ∈ w.entities := by
  rw [mem_entities_iff, census, has_foldl_addAll, Census.has_addAll, Census.has_addAll]

/-- The census counts the roots and the references of all entities. -/
theorem count_census (roots : List Entity) (h : e ∈ w.entities) :
    (w.census roots).count e =
      w.ownRoots.count e + roots.count e +
        ∑ x ∈ w.entities.toFinset, (w.references x).count e := by
  have hempty := (mem_entities_iff w e).1 h
  have hown := (Census.has_addAll _ w.ownRoots e).2 hempty
  have hzero : (Census.empty w.objects.size w.scopes.size w.modules.size).count e = 0 := by
    cases e <;>
      simp only [Census.count, Census.empty, Array.getD_eq_getD_getElem?,
        Array.getElem?_replicate] <;>
      split <;> rfl
  rw [census, count_foldl_addAll _ ((Census.has_addAll _ roots e).2 hown),
    Census.count_addAll _ hown,
    Census.count_addAll _ hempty, hzero, Nat.zero_add, List.map_map,
    List.sum_toFinset _ w.nodup_entities]
  rfl

/-! ## Finding what departs -/

/-- Where the search stands: the counts are those without the references of the entities that were
found, those are known to depart, and `pending` has the remaining entities without a reference. -/
structure Search (w : World σ) (roots : List Entity) (remaining : Finset Entity)
    (counts : Census) (pending : List Entity) : Prop where
  count_eq : ∀ e ∈ w.entities, counts.count e =
    w.ownRoots.count e + roots.count e + ∑ x ∈ remaining, (w.references x).count e
  count_other : ∀ e, e ∉ w.entities → counts.count e = 0
  mem_entities : ∀ e ∈ remaining, e ∈ w.entities
  nodup : pending.Nodup
  mem_pending : ∀ e, e ∈ pending ↔ e ∈ remaining ∧ counts.count e = 0
  found : ∀ e ∈ w.entities, e ∉ remaining → counts.count e = 0 ∧ w.Departs roots e

namespace Search

variable {remaining : Finset Entity} {counts : Census} {pending : List Entity}

/-- An entity without a count departs: whatever refers to it was found. -/
theorem departs (h : Search w roots remaining counts pending) (hentity : e ∈ w.entities)
    (hzero : counts.count e = 0) : w.Departs roots e := by
  have hcount := h.count_eq e hentity
  have hown : w.ownRoots.count e = 0 := by omega
  have hroots : roots.count e = 0 := by omega
  have hsum : ∑ x ∈ remaining, (w.references x).count e = 0 := by omega
  refine .intro hentity (List.count_eq_zero.1 hown) (List.count_eq_zero.1 hroots) ?_
  intro x hx href
  refine (h.found x hx fun hremaining => ?_).2
  have hnone := Finset.sum_eq_zero_iff.1 hsum x hremaining
  exact List.count_eq_zero.1 hnone href

/-- When no entity is pending, none of those that remain departs. -/
theorem not_departs (h : Search w roots remaining counts []) (hdeparts : w.Departs roots e) :
    e ∉ remaining := by
  induction hdeparts with
  | @intro e hentity hown hroots _ ih =>
      intro hremaining
      have hcount := h.count_eq e hentity
      have hsum : ∑ x ∈ remaining, (w.references x).count e = 0 := by
        refine Finset.sum_eq_zero fun x hx => List.count_eq_zero.2 fun href => ?_
        exact ih x (h.mem_entities x hx) href hx
      rw [List.count_eq_zero.2 hown, List.count_eq_zero.2 hroots, hsum] at hcount
      exact absurd ((h.mem_pending e).2 ⟨hremaining, hcount⟩) List.not_mem_nil

/-- One step of the search finds the first pending entity. -/
theorem step (h : Search w roots remaining counts (e :: pending)) :
    Search w roots (remaining.erase e) (counts.removeAll (w.references e)).1
      ((counts.removeAll (w.references e)).2 ++ pending) := by
  obtain ⟨hremaining, hzero⟩ := (h.mem_pending e).1 List.mem_cons_self
  obtain ⟨hfresh, hnodup⟩ := List.nodup_cons.1 h.nodup
  have hcount (x : Entity) : (counts.removeAll (w.references e)).1.count x =
      counts.count x - (w.references e).count x :=
    Census.count_foldl_remove (w.references e) (counts, []) x
  have hfreed (x : Entity) : x ∈ (counts.removeAll (w.references e)).2 ↔
      0 < counts.count x ∧ counts.count x ≤ (w.references e).count x := by
    simpa [Census.removeAll] using Census.mem_foldl_remove (w.references e) (counts, []) x
  refine ⟨?_, ?_, ?_, ?_, ?_, ?_⟩
  · intro x hx
    have hbefore := h.count_eq x hx
    have hsplit := Finset.add_sum_erase remaining (fun y => (w.references y).count x) hremaining
    rw [hcount, hbefore, ← hsplit]
    omega
  · intro x hx
    rw [hcount, h.count_other x hx, Nat.zero_sub]
  · intro x hx
    exact h.mem_entities x (Finset.mem_of_mem_erase hx)
  · refine List.nodup_append.2 ⟨?_, hnodup, ?_⟩
    · exact Census.nodup_foldl_remove (w.references e) (counts, []) List.nodup_nil (by simp)
    · rintro x hx _ hy rfl
      have hpositive := ((hfreed x).1 hx).1
      have hnone := ((h.mem_pending x).1 (List.mem_cons_of_mem e hy)).2
      omega
  · intro x
    rw [List.mem_append, hfreed, Finset.mem_erase, hcount]
    constructor
    · rintro (⟨hpositive, hle⟩ | hrest)
      · have hentity : x ∈ w.entities := by
          by_contra hother
          rw [h.count_other x hother] at hpositive
          exact absurd hpositive (Nat.lt_irrefl 0)
        have hstays : x ∈ remaining := by
          by_contra hgone
          rw [(h.found x hentity hgone).1] at hpositive
          exact absurd hpositive (Nat.lt_irrefl 0)
        refine ⟨⟨?_, hstays⟩, by omega⟩
        rintro rfl
        omega
      · obtain ⟨hstays, hnone⟩ := (h.mem_pending x).1 (List.mem_cons_of_mem e hrest)
        refine ⟨⟨?_, hstays⟩, by omega⟩
        rintro rfl
        exact hfresh hrest
    · rintro ⟨⟨hne, hstays⟩, hnone⟩
      by_cases hbefore : counts.count x = 0
      · have hpending := (h.mem_pending x).2 ⟨hstays, hbefore⟩
        exact .inr ((List.mem_cons.1 hpending).resolve_left hne)
      · exact .inl ⟨by omega, by omega⟩
  · intro x hx hgone
    rw [hcount]
    by_cases heq : x = e
    · rw [heq]
      exact ⟨by omega, h.departs (h.mem_entities e hremaining) hzero⟩
    · have hbefore : x ∉ remaining := fun hmem => hgone (Finset.mem_erase.2 ⟨heq, hmem⟩)
      obtain ⟨hnone, hdeparts⟩ := h.found x hx hbefore
      exact ⟨by omega, hdeparts⟩

/-- The search finds the remaining entities that depart. -/
theorem mem_departures_iff (h : Search w roots remaining counts pending) {left : Nat}
    (hleft : remaining.card ≤ left) :
    e ∈ w.departures counts left pending ↔ e ∈ remaining ∧ w.Departs roots e := by
  induction left generalizing remaining counts pending with
  | zero =>
      have hempty := Finset.card_eq_zero.1 (Nat.le_zero.1 hleft)
      simp [departures, hempty]
  | succ left ih =>
      cases pending with
      | nil =>
          constructor
          · intro hmem
            exact absurd hmem List.not_mem_nil
          · rintro ⟨hremaining, hdeparts⟩
            exact absurd hremaining (h.not_departs hdeparts)
      | cons first rest =>
          obtain ⟨hfirst, hzero⟩ := (h.mem_pending first).1 List.mem_cons_self
          have hcard := Finset.card_erase_of_mem hfirst
          have hrest := ih h.step (by omega)
          rw [departures, List.mem_cons, hrest, Finset.mem_erase]
          constructor
          · rintro (rfl | ⟨⟨_, hremaining⟩, hdeparts⟩)
            · exact ⟨hfirst, h.departs (h.mem_entities _ hfirst) hzero⟩
            · exact ⟨hremaining, hdeparts⟩
          · rintro ⟨hremaining, hdeparts⟩
            by_cases heq : e = first
            · exact .inl heq
            · exact .inr ⟨⟨heq, hremaining⟩, hdeparts⟩

end Search

/-- Counting references finds exactly the entities that depart. -/
theorem mem_unreferenced_iff (w : World σ) (roots : List Entity) (e : Entity) :
    e ∈ w.unreferenced roots ↔ w.Departs roots e := by
  have hsearch : Search w roots w.entities.toFinset (w.census roots)
      (w.entities.filter ((w.census roots).count · == 0)) := by
    refine ⟨fun e he => w.count_census roots he, ?_, ?_, ?_, ?_, ?_⟩
    · intro e he
      exact Census.count_of_not_has fun hhas => he ((w.has_census roots e).1 hhas)
    · intro e he
      exact List.mem_toFinset.1 he
    · exact w.nodup_entities.filter _
    · intro e
      rw [List.mem_filter, List.mem_toFinset, beq_iff_eq]
    · intro e he hgone
      exact absurd (List.mem_toFinset.2 he) hgone
  have hmem := hsearch.mem_departures_iff (e := e) (List.toFinset_card_le w.entities)
  rw [unreferenced, hmem, List.mem_toFinset]
  constructor
  · exact And.right
  · intro hdeparts
    refine ⟨?_, hdeparts⟩
    cases hdeparts with
    | intro hentity => exact hentity

/-- The more is held on to, the less departs. -/
theorem Departs.mono (h : w'.Departs roots' e) (hentities : w'.entities = w.entities)
    (hreferences : ∀ e, w'.references e = w.references e)
    (hkept : ∀ e, e ∈ w.ownRoots ∨ e ∈ roots → e ∈ w'.ownRoots ∨ e ∈ roots') :
    w.Departs roots e := by
  induction h with
  | @intro e hentity hown hroots _ ih =>
      have hnot : ¬(e ∈ w.ownRoots ∨ e ∈ roots) := fun hmem =>
        (hkept e hmem).elim hown hroots
      refine .intro (hentities ▸ hentity) (fun hmem => hnot (.inl hmem))
        (fun hmem => hnot (.inr hmem)) fun x hx href => ?_
      exact ih x (hentities ▸ hx) (hreferences x ▸ href)

end World

end EcmaCore
