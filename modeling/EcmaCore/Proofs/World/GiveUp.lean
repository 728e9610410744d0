import EcmaCore.Proofs.World.Settle

/-!
# The order in which entities are given up

Which entities a world gives up when it is settled is a question of what refers to what, and
they are given up in the order in which a search finds them. The order makes no
difference: what becomes of an object or of a module depends on it alone, and the ledger
gets the same bytes back. So two worlds that differ in environments and in what they hold
on to, and in which the same entities depart, settle alike.

## Main results

* `World.giveUp_comm`: two entities are given up in any order.
* `World.foldl_giveUp_congr`: only which entities are given up matters.
* `World.settle_reframe`: worlds in which the same entities depart settle alike.
-/

namespace EcmaCore

namespace World

variable {σ : Type} {w w' : World σ}

/-! ## Giving up two entities -/

/-- A change of one entry of an array and one of another are made in any order. -/
theorem modify_comm {α : Type} (xs : Array α) (f : α → α) (i j : Nat) :
    (xs.modify i f).modify j f = (xs.modify j f).modify i f := by
  refine Array.ext (by simp) fun k hk _ => ?_
  simp only [Array.getElem_modify]
  by_cases hi : i = k
  · by_cases hj : j = k <;> simp [hi, hj]
  · simp [hi]

/-- Two entities are given up in any order. -/
theorem giveUp_comm (w : World σ) (e e' : Entity) :
    (w.giveUp e).giveUp e' = (w.giveUp e').giveUp e := by
  cases e with
  | object o =>
      cases e' with
      | object o' =>
          by_cases heq : o = o'
          · rw [heq]
          · -- neither of the two changes what the other one gives back
            have hother : ((w.giveUp (.object o)).object o').reserved = (w.object o').reserved := by
              rw [object_giveUp, if_neg (by simpa using heq)]
            have hone : ((w.giveUp (.object o')).object o).reserved = (w.object o).reserved := by
              rw [object_giveUp, if_neg (by simpa using Ne.symm heq)]
            rw [giveUp_object (w.giveUp _) o', giveUp_object (w.giveUp _) o, hother, hone,
              giveUp_object w o, giveUp_object w o']
            simp only [modifyObject]
            rw [modify_comm, Ledger.release_comm]
      | scope s => rfl
      | module m =>
          rw [giveUp_object, giveUp_object]
          rfl
  | scope s => rfl
  | module m =>
      cases e' with
      | object o =>
          rw [giveUp_object, giveUp_object]
          rfl
      | scope s => rfl
      | module m' =>
          simp only [giveUp]
          rw [modify_comm]

/-! ## Giving up many entities -/

/-- Entities that are given up again are spent already. -/
theorem foldl_giveUp_append (w : World σ) {es es' : List Entity} (h : ∀ e ∈ es', e ∈ es) :
    (es ++ es').foldl giveUp w = es.foldl giveUp w := by
  rw [List.foldl_append]
  exact foldl_giveUp_of_isSpent es' fun e he => isSpent_foldl_giveUp es w (h e he)

/-- Only which entities are given up matters, not in which order or how often. -/
theorem foldl_giveUp_congr (w : World σ) {es es' : List Entity} (h : ∀ e, e ∈ es ↔ e ∈ es') :
    es.foldl giveUp w = es'.foldl giveUp w := by
  calc es.foldl giveUp w
      = (es ++ es').foldl giveUp w := (foldl_giveUp_append w fun e he => (h e).2 he).symm
    _ = (es' ++ es).foldl giveUp w :=
        List.perm_append_comm.foldl_eq' (fun x _ y _ w => w.giveUp_comm x y) w
    _ = es'.foldl giveUp w := foldl_giveUp_append w fun e he => (h e).1 he

/-! ## Worlds with other environments -/

/-- A world with other environments, and which holds on to other entities. -/
def reframe (w : World σ) (scopes : Array Scope) (held : List Entity) : World σ :=
  { w with scopes, held }

variable (w) (scopes : Array Scope) (held : List Entity)

theorem giveUp_reframe (e : Entity) :
    (w.reframe scopes held).giveUp e = (w.giveUp e).reframe scopes held := by
  cases e with
  | object o =>
      rw [giveUp_object, giveUp_object]
      rfl
  | scope s => rfl
  | module m => rfl

theorem foldl_giveUp_reframe (es : List Entity) :
    es.foldl giveUp (w.reframe scopes held) = (es.foldl giveUp w).reframe scopes held := by
  induction es generalizing w with
  | nil => rfl
  | cons e es ih => rw [List.foldl_cons, List.foldl_cons, giveUp_reframe, ih]

/-- Worlds that differ in their environments and in what they hold on to settle alike, if the same
entities depart in both. -/
theorem settle_reframe [Embedding σ]
    (h : ∀ e, (w.reframe scopes held).Departs (Embedding.roots w.host) e ↔
      w.Departs (Embedding.roots w.host) e) :
    (w.reframe scopes held).settle = w.settle.reframe scopes held := by
  rw [settle_eq, settle_eq, foldl_giveUp_reframe]
  refine congrArg (reframe · scopes held) (foldl_giveUp_congr w fun e => ?_)
  rw [mem_unreferenced_iff, mem_unreferenced_iff]
  exact h e

end World

end EcmaCore
