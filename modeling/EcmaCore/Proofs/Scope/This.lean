import EcmaCore.Proofs.Action
import EcmaCore.Proofs.World.Reaches
import EcmaCore.Proofs.World.Scopes

/-!
# The environment that `this` comes from

`this` is that of the nearest environment, from the running one outward, that has a
value of `this`. Which environment this is does not depend on who is running or has
called whom, and never changes, since environments stay where they are and neither get
nor lose a `this` of their own.

The `this` of an invocation is a slot that is written once: binding it is the one step
of a record that touches it, and happens to an unbound one only.

## Main results

* `World.FindsThis.resolveThis`: the walk outward finds the nearest environment that has
  a `this`.
* `World.FindsThis.reaches`: it is the same in all later worlds.
* `Record.Step.this_cases`: a step of a record binds its `this` or leaves it alone.
* `World.invocation?_of_bound`: a `this` that is bound stays what it is.
* `World.boundOnce_of_reaches`: an unbound one is bound at most once.
-/

namespace EcmaCore

/-! ## Records -/

namespace Record

variable {r r' : Record} {v : Value}

/-- What a record knows of an invocation, if it is that of a function. -/
def invocation? : Record → Option FunctionScope
  | .function _ info => some info
  | _ => none

theorem eq_function_of_invocation {info : FunctionScope} (h : r.invocation? = some info) :
    ∃ slots, r = .function slots info := by
  cases r with
  | function slots info' =>
      cases h
      exact ⟨slots, rfl⟩
  | _ => cases h

/-- Binding `this` happens to an invocation that has an unbound one. -/
theorem bindThis_eq_ok_iff :
    r.bindThis v = .ok r' ↔ ∃ slots info, r = .function slots info ∧ info.lexicalThis = false ∧
      info.this = none ∧ r' = .function slots { info with this := some v } := by
  constructor
  · intro h
    cases r with
    | function slots info =>
        obtain ⟨this, lexicalThis, function, newTarget⟩ := info
        cases lexicalThis with
        | true => cases h
        | false =>
            cases this with
            | some v' => cases h
            | none =>
                cases h
                exact ⟨slots, _, rfl, rfl, rfl, rfl⟩
    | _ => cases h
  · rintro ⟨slots, ⟨this, lexicalThis, function, newTarget⟩, rfl, hlexical, hthis, rfl⟩
    cases hlexical
    cases hthis
    rfl

/-- A step of a record binds its `this`, or leaves alone whether it has one, which one, and what it
knows of an invocation. -/
theorem Step.this_cases (h : r.Step r') :
    (∃ v, r.bindThis v = .ok r') ∨
      r'.hasThis = r.hasThis ∧ r'.this = r.this ∧ r'.invocation? = r.invocation? := by
  have hslots (slots : Bindings) : (r.withSlots slots).hasThis = r.hasThis ∧
      (r.withSlots slots).this = r.this ∧ (r.withSlots slots).invocation? = r.invocation? := by
    cases r <;> exact ⟨rfl, rfl, rfl⟩
  cases h with
  | bindThis hbound => exact .inl ⟨_, hbound⟩
  | create | init | assign | delete => exact .inr (hslots _)
  | addVarName name =>
      refine .inr ?_
      cases r with
      | global slots info =>
          unfold Record.addVarName
          dsimp only
          split <;> exact ⟨rfl, rfl, rfl⟩
      | _ => exact ⟨rfl, rfl, rfl⟩
  | removeVarName name =>
      refine .inr ?_
      cases r <;> exact ⟨rfl, rfl, rfl⟩
  | @addImport name target extended hextended =>
      refine .inr ?_
      cases r with
      | module slots imports =>
          unfold Record.addImport at hextended
          dsimp only at hextended
          cases hinit : (slots.create name false false true).init name .undefined with
          | error e =>
              rw [hinit] at hextended
              cases hextended
          | ok slots' =>
              rw [hinit] at hextended
              cases hextended
              exact ⟨rfl, rfl, rfl⟩
      | _ =>
          cases hextended
          exact ⟨rfl, rfl, rfl⟩

/-- No step of a record gives it a `this` or takes it away, or changes one that has a value. -/
structure KeepsThis (r r' : Record) : Prop where
  has : r'.hasThis = r.hasThis
  value : ∀ v, r.this = .ok v → r'.this = .ok v

theorem Step.keepsThis (h : r.Step r') : r.KeepsThis r' := by
  rcases h.this_cases with ⟨v, hbound⟩ | ⟨hhas, hthis, -⟩
  · obtain ⟨slots, ⟨this, lexicalThis, function, newTarget⟩, rfl, hlexical, hunbound, rfl⟩ :=
      bindThis_eq_ok_iff.1 hbound
    cases hlexical
    cases hunbound
    exact ⟨rfl, fun v' hv' => by cases hv'⟩
  · exact ⟨hhas, fun v hv => hthis.trans hv⟩

end Record

/-! ## The nearest environment with a `this` -/

namespace World

variable {σ : Type}

/-- From an environment `s`, that many environments outward, `t` is the nearest one that has a
`this` of its own. -/
inductive FindsThis (w : World σ) (t : ScopeId) : Nat → ScopeId → Prop
  | here (h : (w.scope t).record.hasThis = true) : FindsThis w t 0 t
  | outward {depth : Nat} {s outer : ScopeId} (h : (w.scope s).record.hasThis = false)
      (houter : (w.scope s).outer = some outer) (rest : FindsThis w t depth outer) :
      FindsThis w t (depth + 1) s

variable {w : World σ} {s t : ScopeId} {depth : Nat}

namespace FindsThis

/-- The walk meets environments of the world only. -/
theorem index_lt (h : w.FindsThis t depth s) : s.index < w.scopes.size := by
  refine Nat.lt_of_not_le fun hle => ?_
  have hscope := w.scope_of_size_le hle
  cases h with
  | here hthis =>
      rw [hscope] at hthis
      cases hthis
  | outward _ houter _ =>
      rw [hscope] at houter
      cases houter

/-- The environment that is found has a `this`. -/
theorem hasThis (h : w.FindsThis t depth s) : (w.scope t).record.hasThis = true := by
  induction h with
  | here h => exact h
  | outward _ _ _ ih => exact ih

/-- From one environment, the walk has one length only. -/
theorem depth_unique {depth' : Nat} (h : w.FindsThis t depth s) (h' : w.FindsThis t depth' s) :
    depth = depth' := by
  induction h generalizing depth' with
  | here hthis =>
      cases h' with
      | here => rfl
      | outward hnone _ _ =>
          rw [hthis] at hnone
          cases hnone
  | outward hnone houter _ ih =>
      cases h' with
      | here hthis =>
          rw [hthis] at hnone
          cases hnone
      | outward _ houter' rest' =>
          rw [houter] at houter'
          cases houter'
          rw [ih rest']

/-- The environments on the walk, which are all different. -/
theorem exists_path (h : w.FindsThis t depth s) :
    ∃ path : List Nat, path.length = depth + 1 ∧ path.Nodup ∧
      ∀ i ∈ path, i < w.scopes.size ∧ ∃ d, d ≤ depth ∧ w.FindsThis t d ⟨i⟩ := by
  induction h with
  | here hthis =>
      refine ⟨[t.index], rfl, List.nodup_singleton _, fun i hi => ?_⟩
      rw [List.mem_singleton.1 hi]
      exact ⟨(here hthis).index_lt, 0, Nat.le_refl _, here hthis⟩
  | @outward depth s outer hnone houter rest ih =>
      obtain ⟨path, hlength, hnodup, hpath⟩ := ih
      have hwalk : w.FindsThis t (depth + 1) s := outward hnone houter rest
      refine ⟨s.index :: path, by rw [List.length_cons, hlength], ?_, fun i hi => ?_⟩
      · -- a walk from an environment on the rest of the path is shorter than the one from `s`
        refine List.nodup_cons.2 ⟨fun hmem => ?_, hnodup⟩
        obtain ⟨-, d, hd, hagain⟩ := hpath s.index hmem
        have := hwalk.depth_unique hagain
        omega
      · rcases List.mem_cons.1 hi with rfl | hi
        · exact ⟨hwalk.index_lt, depth + 1, Nat.le_refl _, hwalk⟩
        · obtain ⟨hlt, d, hd, hfinds⟩ := hpath i hi
          exact ⟨hlt, d, by omega, hfinds⟩

/-- The walk is shorter than there are environments. -/
theorem depth_lt (h : w.FindsThis t depth s) : depth < w.scopes.size := by
  obtain ⟨path, hlength, hnodup, hpath⟩ := h.exists_path
  have hsub : path ⊆ List.range w.scopes.size := fun i hi => List.mem_range.2 (hpath i hi).1
  have hle := (hnodup.subperm hsub).length_le
  rw [hlength, List.length_range] at hle
  omega

/-- A list of environments that is long enough shows what the walk finds. -/
theorem find?_scopesWithin (h : w.FindsThis t depth s) {bound : Nat} (hbound : depth < bound) :
    ((w.scopesWithin bound s).find? fun s => (w.scope s).record.hasThis) = some t := by
  induction h generalizing bound with
  | here hthis =>
      cases bound with
      | zero => omega
      | succ bound =>
          rw [scopesWithin]
          exact List.find?_cons_of_pos hthis
  | outward hnone houter _ ih =>
      cases bound with
      | zero => omega
      | succ bound =>
          rw [scopesWithin, List.find?_cons_of_neg (by rw [hnone]; simp), houter]
          exact ih (by omega)

/-- The nearest environment that has a `this` is the one that code finds. -/
theorem thisScope (h : w.FindsThis t depth s) (hrunning : w.runningScope = s) :
    w.thisScope = t := by
  rw [World.thisScope, hrunning, scopeChain, h.find?_scopesWithin (Nat.lt_succ_of_lt h.depth_lt)]
  rfl

/-- **`this` is that of the nearest environment that has one.** -/
theorem resolveThis (h : w.FindsThis t depth s) (hrunning : w.runningScope = s) :
    Engine.resolveThis w = Engine.thisOf t w := by
  rw [Engine.resolveThis, Action.bind_ok (Action.get_apply w), h.thisScope hrunning]

end FindsThis

@[simp] theorem thisOf_apply (w : World σ) (s : ScopeId) :
    Engine.thisOf s w = Action.ofExcept (w.scope s).record.this w :=
  rfl

/-! ## Unbound `this` -/

variable {info : FunctionScope} {v : Value}

theorem index_lt_of_invocation (h : (w.scope s).record.invocation? = some info) :
    s.index < w.scopes.size := by
  refine World.index_lt_of_record fun hrecord => ?_
  rw [hrecord] at h
  cases h

/-- An unbound `this` can be bound. -/
theorem exists_bindThis (h : (w.scope s).record.invocation? = some info)
    (hlexical : info.lexicalThis = false) (hunbound : info.this = none) (v : Value) :
    ∃ w', Engine.bindThis s v w = .ok () w' := by
  obtain ⟨slots, hrecord⟩ := Record.eq_function_of_invocation h
  refine ⟨w.setRecord s (.function slots { info with this := some v }), Action.attempt_ok ?_⟩
  rw [Record.bindThis_eq_ok_iff.2 ⟨slots, info, hrecord, hlexical, hunbound, rfl⟩]
  rfl

/-- An unbound `this` cannot be read. -/
theorem throws_of_unbound (h : (w.scope s).record.invocation? = some info)
    (hlexical : info.lexicalThis = false) (hunbound : info.this = none) :
    (Engine.thisOf s).Throws .reference w := by
  obtain ⟨slots, hrecord⟩ := Record.eq_function_of_invocation h
  refine ⟨.thisUninitialized, rfl, ?_⟩
  simp only [thisOf_apply, hrecord, Record.this, hlexical, hunbound]
  rfl

/-! ## Later worlds -/

section

variable [Embedding σ] {w' : World σ}

/-- Whether an environment has a `this`, and the one it has, are for good. -/
theorem recordsKeep_this (h : w.Reaches w') : w.RecordsKeep Record.KeepsThis w' :=
  (recordsKeep_guarantee (fun _ => ⟨rfl, fun _ => id⟩)
    (fun h h' => ⟨h'.has.trans h.has, fun v => h'.value v ∘ h.value v⟩)
    (fun _ _ => Record.Step.keepsThis) .all).of_reaches h

/-- **The nearest environment with a `this` stays the nearest one.** -/
theorem FindsThis.reaches (h : w.FindsThis t depth s) (hreaches : w.Reaches w') :
    w'.FindsThis t depth s := by
  have hkeep := recordsKeep_this hreaches
  induction h with
  | here hthis =>
      exact here (((hkeep.record t (here hthis).index_lt).has).trans hthis)
  | outward hnone houter rest ih =>
      have hlt := (outward hnone houter rest).index_lt
      exact outward ((hkeep.record _ hlt).has.trans hnone) ((hkeep.outer _ hlt).trans houter) ih

/-! ## Binding `this` -/

/-- What is known of an invocation changes by binding its `this` only. -/
theorem invocation?_change {L : Licence} (h : Change L w w') (hlt : s.index < w.scopes.size) :
    (∃ v, Engine.bindThis s v w = .ok () w') ∨
      (w'.scope s).record.invocation? = (w.scope s).record.invocation? := by
  rcases h.scopes_cases.2 with hscopes | ⟨record, outer, rfl⟩ | ⟨other, record, hstep, rfl⟩
  · rw [scope, scope, hscopes]
    exact .inr rfl
  · rw [scope_addScope, if_neg (Nat.ne_of_lt hlt)]
    exact .inr rfl
  · by_cases hother : other = s
    · subst hother
      rcases hstep.this_cases with ⟨v, hbound⟩ | ⟨-, -, hsame⟩
      · refine .inl ⟨v, Action.attempt_ok ?_⟩
        rw [hbound]
        rfl
      · rw [record_setRecord hlt]
        exact .inr hsame
    · rw [scope_setRecord, if_neg (fun h => hother h.1)]
      exact .inr rfl

/-- What it takes to bind a `this`, and what comes of it. -/
theorem invocation?_bindThis (h : Engine.bindThis s v w = .ok () w') :
    w.Reaches w' ∧ ∃ info, (w.scope s).record.invocation? = some info ∧
      info.lexicalThis = false ∧ info.this = none ∧
      (w'.scope s).record.invocation? = some { info with this := some v } := by
  have hattempt := Action.attempt_eq_ok.1 h
  cases hbound : (w.scope s).record.bindThis v with
  | error e =>
      rw [hbound] at hattempt
      cases hattempt
  | ok record =>
      rw [hbound] at hattempt
      cases hattempt
      obtain ⟨slots, info, hrecord, hlexical, hunbound, rfl⟩ := Record.bindThis_eq_ok_iff.1 hbound
      have hinfo : (w.scope s).record.invocation? = some info := by
        rw [hrecord]
        rfl
      refine ⟨.change .refl (.setRecord s (.bindThis hbound)), info, hinfo, hlexical, hunbound, ?_⟩
      rw [record_setRecord (index_lt_of_invocation hinfo)]
      rfl

/-- What is known of an invocation whose `this` is not to be bound any more is for good. -/
theorem invocation?_of_settled (h : (w.scope s).record.invocation? = some info)
    (hsettled : info.lexicalThis = true ∨ info.this.isSome = true) (hreaches : w.Reaches w') :
    (w'.scope s).record.invocation? = some info := by
  induction hreaches with
  | refl => exact h
  | change _ hchange ih =>
      rcases invocation?_change hchange (index_lt_of_invocation ih) with ⟨v, hbound⟩ | hsame
      · -- binding needs an unbound `this`
        obtain ⟨-, info', hinfo', hlexical, hunbound, -⟩ := invocation?_bindThis hbound
        rw [ih] at hinfo'
        cases hinfo'
        rw [hlexical, hunbound] at hsettled
        simp at hsettled
      · exact hsame.trans ih
  | contexts _ _ ih => exact ih

/-- In all later worlds, the `this` of an environment is a value, and binding it again is a
reference error that changes nothing. -/
def ThisFixed (w : World σ) (s : ScopeId) (v : Value) : Prop :=
  ∀ w', w.Reaches w' → Engine.thisOf s w' = .ok v w' ∧
    ∀ v', (Engine.bindThis s v').Throws .reference w'

/-- The `this` of an environment is unbound, so that it cannot be read and binding it fixes it, or
it was bound once since `w` and was unbound until then. -/
def ThisBoundOnce (w : World σ) (s : ScopeId) (w' : World σ) : Prop :=
  ((Engine.thisOf s).Throws .reference w' ∧
      ∀ v, ∃ bound, Engine.bindThis s v w' = .ok () bound ∧ bound.ThisFixed s v) ∨
    ∃ v before bound, w.Reaches before ∧ (Engine.thisOf s).Throws .reference before ∧
      Engine.bindThis s v before = .ok () bound ∧ bound.Reaches w' ∧ bound.ThisFixed s v

/-- A `this` that is bound stays what it is. -/
theorem thisFixed_of_bound (h : (w.scope s).record.invocation? = some info)
    (hlexical : info.lexicalThis = false) (hbound : info.this = some v) : w.ThisFixed s v := by
  intro w' hreaches
  have hinfo := invocation?_of_settled h (.inr (by rw [hbound]; rfl)) hreaches
  obtain ⟨slots, hrecord⟩ := Record.eq_function_of_invocation hinfo
  constructor
  · simp only [thisOf_apply, hrecord, Record.this, hlexical, hbound]
    rfl
  · intro v'
    refine ⟨.thisAlreadyBound, rfl, Action.attempt_error ?_⟩
    simp only [hrecord, Record.bindThis, hlexical, hbound]
    rfl

/-- Binding a `this` fixes it. -/
theorem thisFixed_of_bindThis (h : Engine.bindThis s v w = .ok () w') : w'.ThisFixed s v := by
  obtain ⟨-, info, -, hlexical, -, hbound⟩ := invocation?_bindThis h
  exact thisFixed_of_bound hbound hlexical rfl

/-- **A `this` that is unbound is bound at most once.** -/
theorem boundOnce_of_reaches (h : (w.scope s).record.invocation? = some info)
    (hlexical : info.lexicalThis = false) (hunbound : info.this = none) (hreaches : w.Reaches w') :
    w.ThisBoundOnce s w' := by
  -- until it is bound, what is known of the invocation stays the same
  have hsince : (w'.scope s).record.invocation? = some info ∨
      ∃ v before bound, w.Reaches before ∧ (Engine.thisOf s).Throws .reference before ∧
        Engine.bindThis s v before = .ok () bound ∧ bound.Reaches w' := by
    induction hreaches with
    | refl => exact .inl h
    | change hbefore hchange ih =>
        rcases ih with hinfo | ⟨v, before, bound, hbefore, hthrows, hbound, hafter⟩
        · rcases invocation?_change hchange (index_lt_of_invocation hinfo) with ⟨v, hbound⟩ | hsame
          · exact .inr ⟨v, _, _, hbefore, throws_of_unbound hinfo hlexical hunbound, hbound, .refl⟩
          · exact .inl (hsame.trans hinfo)
        · exact .inr ⟨v, before, bound, hbefore, hthrows, hbound, hafter.change hchange⟩
    | contexts hbefore contexts ih =>
        rcases ih with hinfo | ⟨v, before, bound, hbefore, hthrows, hbound, hafter⟩
        · exact .inl hinfo
        · exact .inr ⟨v, before, bound, hbefore, hthrows, hbound, hafter.contexts contexts⟩
  rcases hsince with hinfo | ⟨v, before, bound, hbefore, hthrows, hbound, hafter⟩
  · refine .inl ⟨throws_of_unbound hinfo hlexical hunbound, fun v => ?_⟩
    obtain ⟨bound, hbound⟩ := exists_bindThis hinfo hlexical hunbound v
    exact ⟨bound, hbound, thisFixed_of_bindThis hbound⟩
  · exact .inr ⟨v, before, bound, hbefore, hthrows, hbound, hafter, thisFixed_of_bindThis hbound⟩

end

end World

end EcmaCore
