import EcmaCore.Proofs.World.Scopes

/-!
# Chains of environments

The environments from one outward are a list that ends with one that has no outer
environment, if there is such a list. It names no environment twice, so it is no longer than
`World.scopeChain` looks, and the latter is the whole of it.

## Main results

* `World.Outward.scopeChain_eq`: the chain of an environment is the list of those outward.
* `World.exists_outward`: a chain that has an outermost environment ends with it.
-/

namespace EcmaCore.World

variable {σ : Type} {w w' : World σ} {s t : ScopeId} {chain chain' : List ScopeId}

/-- The environments from `s` outward, up to one without an outer environment. -/
inductive Outward (w : World σ) : ScopeId → List ScopeId → Prop
  | last {s : ScopeId} (h : (w.scope s).outer = none) : Outward w s [s]
  | next {s t : ScopeId} {chain : List ScopeId} (h : (w.scope s).outer = some t)
      (rest : Outward w t chain) : Outward w s (s :: chain)

namespace Outward

theorem unique (h : w.Outward s chain) (h' : w.Outward s chain') : chain = chain' := by
  induction h generalizing chain' with
  | last hlast =>
      cases h' with
      | last => rfl
      | next houter _ =>
          rw [hlast] at houter
          cases houter
  | next houter _ ih =>
      cases h' with
      | last hlast =>
          rw [houter] at hlast
          cases hlast
      | next houter' rest' =>
          rw [houter] at houter'
          cases houter'
          rw [ih rest']

/-- The chain of an environment on a chain is no longer. -/
theorem exists_of_mem (h : w.Outward s chain) (ht : t ∈ chain) :
    ∃ rest, w.Outward t rest ∧ rest.length ≤ chain.length := by
  induction h with
  | last hlast =>
      rw [List.mem_singleton.1 ht]
      exact ⟨_, .last hlast, Nat.le_refl _⟩
  | next houter rest ih =>
      rcases List.mem_cons.1 ht with rfl | hrest
      · exact ⟨_, .next houter rest, Nat.le_refl _⟩
      · obtain ⟨found, hfound, hle⟩ := ih hrest
        exact ⟨found, hfound, Nat.le_succ_of_le hle⟩

/-- No environment is on a chain twice. -/
theorem nodup (h : w.Outward s chain) : chain.Nodup := by
  induction h with
  | last => exact List.nodup_singleton _
  | @next s t chain houter rest ih =>
      -- the chain of `s` would be shorter than itself
      refine List.nodup_cons.2 ⟨fun hmem => ?_, ih⟩
      obtain ⟨again, hagain, hle⟩ := rest.exists_of_mem hmem
      rw [hagain.unique (.next houter rest), List.length_cons] at hle
      omega

/-- All environments of a chain but perhaps its last are environments of the world. -/
theorem index_lt (h : w.Outward s chain) : ∀ t ∈ chain.dropLast, t.index < w.scopes.size := by
  induction h with
  | last => simp
  | @next s t chain houter rest ih =>
      have hs : s.index < w.scopes.size := by
        refine Nat.lt_of_not_le fun hle => ?_
        rw [w.scope_of_size_le hle] at houter
        cases houter
      cases rest with
      | last => simpa using hs
      | next _ _ => simpa using ⟨hs, ih⟩

theorem length_le (h : w.Outward s chain) : chain.length ≤ w.scopes.size + 1 := by
  have hinjective : Function.Injective ScopeId.index := fun ⟨_⟩ ⟨_⟩ => congrArg ScopeId.mk
  have hnodup : (chain.dropLast.map ScopeId.index).Nodup :=
    (h.nodup.sublist chain.dropLast_sublist).map hinjective
  have hsub : chain.dropLast.map ScopeId.index ⊆ List.range w.scopes.size := by
    intro i hi
    obtain ⟨t, ht, rfl⟩ := List.mem_map.1 hi
    exact List.mem_range.2 (h.index_lt t ht)
  have hle := (hnodup.subperm hsub).length_le
  rw [List.length_map, List.length_dropLast, List.length_range] at hle
  omega

theorem scopesWithin_eq (h : w.Outward s chain) {bound : Nat} (hbound : chain.length ≤ bound) :
    w.scopesWithin bound s = chain := by
  induction h generalizing bound with
  | last hlast =>
      obtain ⟨bound, rfl⟩ := Nat.exists_eq_add_one_of_ne_zero (Nat.ne_zero_of_lt hbound)
      rw [scopesWithin, hlast]
  | next houter _ ih =>
      obtain ⟨bound, rfl⟩ := Nat.exists_eq_add_one_of_ne_zero (Nat.ne_zero_of_lt hbound)
      rw [scopesWithin, houter]
      exact congrArg (_ :: ·) (ih (Nat.le_of_succ_le_succ hbound))

/-- The chain of an environment is the list of those outward. -/
theorem scopeChain_eq (h : w.Outward s chain) : w.scopeChain s = chain :=
  h.scopesWithin_eq h.length_le

end Outward

/-! ## Chains in two worlds -/

/-- An environment without an outer one is the end of each chain that it is on. If it gets an outer
environment, and nothing else does, then this becomes the end. -/
theorem exists_outward {last end' : ScopeId} (hlast : (w.scope last).outer = none)
    (houter : (w'.scope last).outer = some end') (hend : (w'.scope end').outer = none)
    (hsame : ∀ t, t ≠ last → (w'.scope t).outer = (w.scope t).outer) {bound : Nat}
    (h : last ∈ w.scopesWithin bound s) :
    ∃ inner, last ∉ inner ∧ w.Outward s (inner ++ [last]) ∧
      w'.Outward s (inner ++ [last, end']) := by
  induction bound generalizing s with
  | zero => exact absurd h List.not_mem_nil
  | succ bound ih =>
      by_cases hs : s = last
      · subst hs
        exact ⟨[], List.not_mem_nil, .last hlast, .next houter (.last hend)⟩
      · rw [scopesWithin] at h
        have hrest := (List.mem_cons.1 h).resolve_left (Ne.symm hs)
        cases ht : (w.scope s).outer with
        | none =>
            rw [ht] at hrest
            exact absurd hrest List.not_mem_nil
        | some t =>
            rw [ht] at hrest
            obtain ⟨inner, hnot, hbefore, hafter⟩ := ih hrest
            refine ⟨s :: inner, ?_, .next ht hbefore, .next ((hsame s hs).trans ht) hafter⟩
            exact fun hmem => (List.mem_cons.1 hmem).elim (fun heq => hs heq.symm) hnot

/-- Environments outside of which nothing changes have the same chain. -/
theorem scopesWithin_congr {bound : Nat}
    (hsame : ∀ t ∈ w.scopesWithin bound s, (w'.scope t).outer = (w.scope t).outer) :
    w'.scopesWithin bound s = w.scopesWithin bound s := by
  induction bound generalizing s with
  | zero => rfl
  | succ bound ih =>
      rw [scopesWithin] at hsame ⊢
      rw [scopesWithin, hsame s List.mem_cons_self]
      cases ht : (w.scope s).outer with
      | none => rfl
      | some t =>
          rw [ht] at hsame
          exact congrArg (s :: ·) (ih fun x hx => hsame x (List.mem_cons_of_mem s hx))

end EcmaCore.World
