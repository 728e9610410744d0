import EcmaCore.Proofs.Action
import EcmaCore.Proofs.Scope.Slots
import EcmaCore.Proofs.World.Scopes

/-!
# The life of a declared binding

A binding of a declarative environment is absent, uninitialised or initialised, and
`BindingOperation.next` says how an operation on its name moves it between the three
and what the operation answers. That is all there is to it: the environment keeps one
such life for every name, and an operation concerns the life of its own name only.

A binding that is deleted and created again starts a new life. Within one life its
flags never change, and it is initialised once and for all.

## Main results

* `BindingOperation.run_does`: what an operation does to an environment is what it does
  to the binding of its name.
* `BindingOperation.binding?_runAll`: after operations in turn, every name has the
  binding that the operations on this name give it.
* `BindingOperation.after_cases`: what an operation can do to a binding.
* `BindingOperation.runAll_continues`, `BindingOperation.runAll_permanent`: what lasts
  for a life.
* `BindingOperation.life_of_bindings`: all of it, for histories of any length.
-/

namespace EcmaCore

/-! ## Operations -/

/-- The operations on the declared bindings of an environment. -/
inductive BindingOperation where
  | createMutable (name : String) (deletable : Bool)
  | createImmutable (name : String) (strict : Bool)
  | init (name : String) (v : Value)
  | set (name : String) (v : Value) (strict : Bool)
  | get (name : String) (strict : Bool)
  | probe (name : String) (strict : Bool)
  | delete (name : String)

namespace BindingOperation

/-- The name that an operation is about. -/
def name : BindingOperation → String
  | createMutable name _ | createImmutable name _ | init name _ | set name _ _ | get name _
  | probe name _ | delete name => name

/-- The request for an operation on an environment. -/
def request (s : ScopeId) : BindingOperation → Request
  | createMutable name deletable => .createMutable s name deletable
  | createImmutable name strict => .createImmutable s name strict
  | init name v => .initBinding s name v
  | set name v strict => .setBinding s name v strict
  | get name strict => .getBinding s name strict
  | probe name strict => .probeBinding s name strict
  | delete name => .deleteBinding s name

/-- What an operation answers, and what becomes of the binding of its name. -/
def next : BindingOperation → Option Binding → Except Error (Answer × Option Binding)
  | createMutable _ deletable, b => .ok (.done, some (b.getD ⟨none, true, deletable, false⟩))
  | createImmutable _ strict, b => .ok (.done, some (b.getD ⟨none, false, false, strict⟩))
  | init name _, none => .error (.notDefined name)
  | init _ v, some b => .ok (.done, some { b with value := some v })
  | set name v strict, none =>
      if strict then .error (.notDefined name) else .ok (.done, some ⟨some v, true, true, false⟩)
  | set name v strict, some b =>
      if b.value.isNone then .error (.uninitialized name)
      else if b.mutable then .ok (.done, some { b with value := some v })
      else if strict || b.strict then .error (.constantAssigned name)
      else .ok (.done, some b)
  | get name _, none => .error (.notDefined name)
  | get name _, some b =>
      match b.value with
      | none => .error (.uninitialized name)
      | some v => .ok (.value v, some b)
  | probe _ _, b => .ok (.binding (b.bind fun b => b.value.map fun v => (b, v)), b)
  | delete _, none => .ok (.flag true, none)
  | delete _, some b => if b.deletable then .ok (.flag true, none) else .ok (.flag false, some b)

/-- What becomes of the binding of an operation's name, which an error leaves alone. -/
def after (operation : BindingOperation) (b : Option Binding) : Option Binding :=
  match operation.next b with
  | .ok (_, b') => b'
  | .error _ => b

section

variable {σ : Type} [Embedding σ]

/-- Carries out an operation on an environment. -/
def run (E : Engine σ) (s : ScopeId) (operation : BindingOperation) : Action σ Answer :=
  (operation.request s).perform E

/-- The world after operations in turn, however each of them ends. -/
def runAll (E : Engine σ) (s : ScopeId) (operations : List BindingOperation) (w : World σ) :
    World σ :=
  operations.foldl (fun w operation => (operation.run E s).after w) w

end

/-! ## One operation -/

section

variable {σ : Type} {w : World σ} {s : ScopeId} {bs : Bindings}

/-- A run on an environment with the bindings `bs` does what `outcome` says of one name: it ends
with an error and changes nothing, or it answers and leaves the same bindings, apart from that of
the name, and nothing changes if that is the same, too. -/
def Does (w : World σ) (s : ScopeId) (bs : Bindings) (name : String)
    (outcome : Except Error (Answer × Option Binding)) (run : Action σ Answer) : Prop :=
  match outcome with
  | .error e => run w = .error (.thrown e) w
  | .ok (answer, b) =>
      ∃ bs' : Bindings, run w = .ok answer (w.setRecord s (.declarative bs')) ∧
        (∀ other, bs'.get? other = if name = other then b else bs.get? other) ∧
        (b = bs.get? name → bs' = bs)

/-- Runs that agree where they start do the same. -/
theorem Does.congr {name : String} {outcome : Except Error (Answer × Option Binding)}
    {run run' : Action σ Answer} (h : Does w s bs name outcome run) (hrun : run' w = run w) :
    Does w s bs name outcome run' := by
  unfold Does at h ⊢
  rw [hrun]
  exact h

/-- An answer without a change. -/
theorem does_answer (hrecord : (w.scope s).record = .declarative bs) (name : String)
    {answer : Answer} {run : Action σ Answer} (h : run w = .ok answer w) :
    Does w s bs name (.ok (answer, bs.get? name)) run := by
  refine ⟨bs, ?_, fun other => ?_, fun _ => rfl⟩
  · rw [World.setRecord_self hrecord, h]
  · split
    · next heq => rw [heq]
    · rfl

/-- An update of the slots. -/
theorem does_updateSlots (hrecord : (w.scope s).record = .declarative bs)
    {f : Bindings → Except Error Bindings} {name : String} {b : Option Binding} {bs' : Bindings}
    (h : f bs = .ok bs')
    (hget : ∀ other, bs'.get? other = if name = other then b else bs.get? other)
    (hsame : b = bs.get? name → bs' = bs) :
    Does w s bs name (.ok (.done, b)) (do Engine.updateSlots s f; return .done) := by
  have hrun : Engine.updateSlots s f w = .ok () (w.setRecord s (.declarative bs')) := by
    simp only [Engine.updateSlots_eq, hrecord, Record.slots, h]
    rfl
  exact ⟨bs', Action.bind_ok hrun, hget, hsame⟩

/-- An update of the slots that fails. -/
theorem does_updateSlots_error (hrecord : (w.scope s).record = .declarative bs)
    {f : Bindings → Except Error Bindings} {name : String} {e : Error} (h : f bs = .error e) :
    Does w s bs name (.error e) (do Engine.updateSlots s f; return .done) := by
  have hrun : Engine.updateSlots s f w = .error (.thrown e) w := by
    simp only [Engine.updateSlots_eq, hrecord, Record.slots, h]
  exact Action.bind_error hrun

theorem does_create (hrecord : (w.scope s).record = .declarative bs) (name : String)
    (mutable deletable strict : Bool) :
    Does w s bs name (.ok (.done, some ((bs.get? name).getD ⟨none, mutable, deletable, strict⟩)))
      (do
        Engine.updateSlots s fun slots => .ok (slots.create name mutable deletable strict)
        return .done) := by
  refine does_updateSlots hrecord rfl (fun other => ?_) fun hsame => ?_
  · rw [Bindings.get?_create]
    by_cases heq : name = other
    · subst heq
      cases bs.get? name <;> simp
    · simp [heq]
  · refine if_pos ?_
    rw [Table.contains_eq_isSome, ← hsame]
    rfl

theorem does_init (hrecord : (w.scope s).record = .declarative bs) (name : String) (v : Value) :
    Does w s bs name ((init name v).next (bs.get? name))
      (do Engine.updateSlots s (·.init name v); return .done) := by
  cases hb : bs.get? name with
  | none => exact does_updateSlots_error hrecord (by rw [Bindings.init, hb])
  | some b =>
      have hinit : bs.init name v = .ok (bs.insert name { b with value := some v }) := by
        rw [Bindings.init, hb]
      refine does_updateSlots hrecord hinit (fun other => bs.get?_insert name other _)
        fun hsame => ?_
      exact Table.insert_of_get? hsame.symm

/-- Assigning succeeds with the binding that `next` says, or it fails in the same way. -/
theorem assign_cases (bs : Bindings) (name : String) (v : Value) (strict : Bool) :
    (∃ e, (set name v strict).next (bs.get? name) = .error e ∧
        bs.assign name v strict = .error e) ∨
      ∃ bs', (set name v strict).next (bs.get? name) = .ok (.done, bs'.get? name) ∧
        bs.assign name v strict = .ok bs' ∧ (bs'.get? name = bs.get? name → bs' = bs) := by
  cases hb : bs.get? name with
  | none =>
      cases strict with
      | true => exact .inl ⟨_, rfl, by rw [Bindings.assign, hb]; rfl⟩
      | false =>
          have hpresent : ((bs.create name true true false).get? name).isSome := by
            rw [Bindings.get?_create, if_pos ⟨rfl, hb⟩]
            rfl
          obtain ⟨bs', hinit⟩ := Bindings.init_eq_ok_iff (v := v).2 hpresent
          have hassign : bs.assign name v false = .ok bs' := by
            rw [Bindings.assign, hb]
            exact hinit
          have hget : bs'.get? name = some ⟨some v, true, true, false⟩ := by
            rw [Bindings.get?_assign hassign, if_pos rfl, hb]
          refine .inr ⟨bs', by rw [hget]; rfl, hassign, fun hsame => ?_⟩
          rw [hget] at hsame
          cases hsame
  | some b =>
      have hassign : bs.assign name v strict =
          if b.value.isNone then .error (.uninitialized name)
          else if b.mutable then .ok (bs.insert name { b with value := some v })
          else if strict || b.strict then .error (.constantAssigned name)
          else .ok bs := by
        rw [Bindings.assign, hb]
      simp only [next]
      by_cases hvalue : b.value.isNone = true
      · rw [if_pos hvalue] at hassign ⊢
        exact .inl ⟨_, rfl, hassign⟩
      rw [if_neg hvalue] at hassign ⊢
      by_cases hmutable : b.mutable = true
      · rw [if_pos hmutable] at hassign ⊢
        refine .inr ⟨_, by rw [Table.get?_insert_self], hassign, fun hsame => ?_⟩
        rw [Table.get?_insert_self] at hsame
        exact Table.insert_of_get? (hb.trans hsame.symm)
      rw [if_neg hmutable] at hassign ⊢
      by_cases hstrict : (strict || b.strict) = true
      · rw [if_pos hstrict] at hassign ⊢
        exact .inl ⟨_, rfl, hassign⟩
      · rw [if_neg hstrict] at hassign ⊢
        exact .inr ⟨bs, by rw [hb], hassign, fun _ => rfl⟩

theorem does_set (hrecord : (w.scope s).record = .declarative bs) (name : String) (v : Value)
    (strict : Bool) :
    Does w s bs name ((set name v strict).next (bs.get? name))
      (do Engine.updateSlots s (·.assign name v strict); return .done) := by
  rcases assign_cases bs name v strict with ⟨e, hnext, hassign⟩ | ⟨bs', hnext, hassign, hsame⟩
  · rw [hnext]
    exact does_updateSlots_error hrecord hassign
  · rw [hnext]
    refine does_updateSlots hrecord hassign (fun other => ?_) hsame
    by_cases heq : name = other
    · rw [if_pos heq, heq]
    · rw [if_neg heq, Bindings.get?_assign hassign, if_neg heq]

theorem does_delete (hrecord : (w.scope s).record = .declarative bs) (name : String) :
    Does w s bs name ((delete name).next (bs.get? name))
      (do return .flag (← Engine.deleteBinding s name)) := by
  cases hdelete : bs.delete name with
  | some bs' =>
      have hrun : Engine.deleteBinding s name w = .ok true (w.setRecord s (.declarative bs')) := by
        rw [Engine.deleteBinding, Action.change_apply]
        simp only [hrecord, Record.backing?, Record.slots, hdelete]
        rfl
      have hnext : (delete name).next (bs.get? name) = .ok (.flag true, none) := by
        unfold Bindings.delete at hdelete
        cases hb : bs.get? name with
        | none => rfl
        | some b =>
            rw [hb] at hdelete
            exact if_pos (by by_contra hkept; simp [hkept] at hdelete)
      rw [hnext]
      refine ⟨bs', Action.bind_ok hrun, Bindings.get?_delete hdelete, fun hsame => ?_⟩
      rw [Bindings.delete, ← hsame] at hdelete
      exact (Option.some.inj hdelete).symm
  | none =>
      have hrun : Engine.deleteBinding s name w = .ok false w := by
        rw [Engine.deleteBinding, Action.change_apply]
        simp only [hrecord, Record.backing?, Record.slots, hdelete]
      have hnext : (delete name).next (bs.get? name) = .ok (.flag false, bs.get? name) := by
        unfold Bindings.delete at hdelete
        cases hb : bs.get? name with
        | none =>
            rw [hb] at hdelete
            cases hdelete
        | some b =>
            rw [hb] at hdelete
            exact if_neg (by intro hgone; simp [hgone] at hdelete)
      rw [hnext]
      exact does_answer hrecord name (Action.bind_ok hrun)

theorem does_get (hrecord : (w.scope s).record = .declarative bs) (name : String)
    (strict : Bool) :
    Does w s bs name ((get name strict).next (bs.get? name))
      (do return .value (← Action.ofExcept (bs.read name))) := by
  rw [Bindings.read_eq]
  cases hb : bs.get? name with
  | none => rfl
  | some b =>
      cases hvalue : b.value with
      | none =>
          simp only [next, hvalue]
          rfl
      | some v =>
          simp only [next, hvalue, ← hb]
          exact does_answer hrecord name rfl

theorem does_probe (hrecord : (w.scope s).record = .declarative bs) (name : String)
    (strict : Bool) :
    Does w s bs name ((probe name strict).next (bs.get? name))
      (do return .binding (← pure (bs.probe name))) := by
  refine does_answer hrecord name ?_
  unfold Bindings.probe
  cases bs.get? name <;> rfl

/-- What is asked of an environment of declared bindings is done to the binding of the name. -/
theorem execute_does [Embedding σ] (E : Engine σ)
    (hrecord : (w.scope s).record = .declarative bs) (operation : BindingOperation) :
    Does w s bs operation.name (operation.next (bs.get? operation.name))
      ((operation.request s).execute E) := by
  -- an operation reads the record first, and goes on as it does for a declarative one
  have look {α : Type} (act : World σ → Action σ α) : (MonadState.get >>= act) w = act w w :=
    Action.bind_ok (Action.get_apply w)
  cases operation with
  | createMutable name deletable =>
      refine (does_create hrecord name true deletable false).congr (Action.bind_congr ?_)
      refine (look _).trans ?_
      rw [hrecord]
  | createImmutable name strict =>
      refine (does_create hrecord name false false strict).congr (Action.bind_congr ?_)
      refine (look _).trans ?_
      rw [hrecord]
  | init name v =>
      refine (does_init hrecord name v).congr (Action.bind_congr ?_)
      refine (look _).trans ?_
      rw [hrecord]
      rfl
  | set name v strict =>
      refine (does_set hrecord name v strict).congr (Action.bind_congr ?_)
      refine (look _).trans ?_
      rw [hrecord]
      rfl
  | get name strict =>
      refine (does_get hrecord name strict).congr (Action.bind_congr ?_)
      refine (look _).trans ?_
      rw [hrecord]
      rfl
  | probe name strict =>
      refine (does_probe hrecord name strict).congr (Action.bind_congr ?_)
      refine (look _).trans ?_
      rw [hrecord]
      rfl
  | delete name => exact does_delete hrecord name

/-- What holding on to entities changes is undone. -/
theorem Does.holding {name : String} {outcome : Except Error (Answer × Option Binding)}
    {act : Action σ Answer} {entities : List Entity}
    (h : Does { w with held := entities ++ w.held } s bs name outcome act) :
    Does w s bs name outcome (act.holding entities) := by
  cases outcome with
  | error e =>
      show act.holding entities w = _
      rw [Action.holding_apply, show act _ = _ from h]
  | ok result =>
      obtain ⟨bs', hrun, hget⟩ := h
      refine ⟨bs', ?_, hget⟩
      rw [Action.holding_apply, hrun]
      rfl

/-- What an operation does to an environment is what it does to the binding of its name. -/
theorem run_does [Embedding σ] (E : Engine σ) (hrecord : (w.scope s).record = .declarative bs)
    (operation : BindingOperation) :
    Does w s bs operation.name (operation.next (bs.get? operation.name)) (operation.run E s) :=
  .holding (execute_does (w := { w with held := (operation.request s).operands ++ w.held }) E
    hrecord operation)

end

end BindingOperation

/-! ## Environments of declared bindings -/

namespace World

variable {σ : Type} {w : World σ} {s : ScopeId}

/-- An environment is one of the world, and has declared bindings and nothing else. -/
structure IsDeclarative (w : World σ) (s : ScopeId) : Prop where
  lt : s.index < w.scopes.size
  record : ∃ bs, (w.scope s).record = .declarative bs

/-- The declared binding of a name. -/
def binding? (w : World σ) (s : ScopeId) (name : String) : Option Binding :=
  (w.scope s).record.slots.get? name

end World

namespace BindingOperation

variable {σ : Type} [Embedding σ] {E : Engine σ} {w : World σ} {s : ScopeId} {name : String}

/-- An operation leaves the world alone but for one record, which stays one of declared bindings,
and in it but for the binding of its name. -/
theorem run_after (E : Engine σ) (h : w.IsDeclarative s) (operation : BindingOperation) :
    ∃ bs, (operation.run E s).after w = w.setRecord s (.declarative bs) ∧
      ∀ other, bs.get? other =
        if operation.name = other then operation.after (w.binding? s other)
        else w.binding? s other := by
  obtain ⟨bs, hrecord⟩ := h.record
  have hbinding (other : String) : w.binding? s other = bs.get? other := by
    rw [World.binding?, hrecord]
    rfl
  simp only [hbinding]
  have hdoes := run_does E hrecord operation
  cases hnext : operation.next (bs.get? operation.name) with
  | error e =>
      rw [hnext] at hdoes
      refine ⟨bs, ?_, fun other => ?_⟩
      · rw [Action.after_of_error hdoes, World.setRecord_self hrecord]
      · split
        · next heq => rw [← heq, after, hnext]
        · rfl
  | ok result =>
      rw [hnext] at hdoes
      obtain ⟨bs', hrun, hget, -⟩ := hdoes
      refine ⟨bs', Action.after_of_ok hrun, fun other => ?_⟩
      rw [hget]
      split
      · next heq => rw [← heq, after, hnext]
      · rfl

theorem isDeclarative_run (E : Engine σ) (h : w.IsDeclarative s) (operation : BindingOperation) :
    ((operation.run E s).after w).IsDeclarative s := by
  obtain ⟨bs, hafter, -⟩ := run_after E h operation
  rw [hafter]
  exact ⟨by simpa using h.lt, bs, World.record_setRecord h.lt _⟩

/-- The bindings after one operation. -/
theorem binding?_run (E : Engine σ) (h : w.IsDeclarative s) (operation : BindingOperation)
    (name : String) :
    ((operation.run E s).after w).binding? s name =
      if operation.name = name then operation.after (w.binding? s name)
      else w.binding? s name := by
  obtain ⟨bs, hafter, hget⟩ := run_after E h operation
  rw [hafter, ← hget, World.binding?, World.record_setRecord h.lt]
  rfl

/-! ## Operations in turn -/

@[simp] theorem runAll_cons (E : Engine σ) (s : ScopeId) (operation : BindingOperation)
    (operations : List BindingOperation) (w : World σ) :
    runAll E s (operation :: operations) w =
      runAll E s operations ((operation.run E s).after w) :=
  rfl

theorem isDeclarative_runAll (E : Engine σ) (h : w.IsDeclarative s)
    (operations : List BindingOperation) : (runAll E s operations w).IsDeclarative s := by
  induction operations generalizing w with
  | nil => exact h
  | cons operation operations ih => exact ih (isDeclarative_run E h operation)

/-- A binding after operations in turn, from the operations on its name alone. -/
theorem binding?_runAll (E : Engine σ) (h : w.IsDeclarative s)
    (operations : List BindingOperation) (name : String) :
    (runAll E s operations w).binding? s name =
      (operations.filter (·.name = name)).foldl (fun b operation => operation.after b)
        (w.binding? s name) := by
  induction operations generalizing w with
  | nil => rfl
  | cons operation operations ih =>
      rw [runAll_cons, ih (isDeclarative_run E h operation), binding?_run E h]
      by_cases heq : operation.name = name
      · rw [if_pos heq, List.filter_cons_of_pos (by simpa using heq)]
        rfl
      · rw [if_neg heq, List.filter_cons_of_neg (by simpa using heq)]

end BindingOperation

/-! ## What lasts for a life -/

/-- A binding is another one later in its life: its flags are the same, and if it was initialised
it still is. -/
structure Binding.Continues (b b' : Binding) : Prop where
  mutable : b'.mutable = b.mutable
  deletable : b'.deletable = b.deletable
  strict : b'.strict = b.strict
  initialized : b.value.isSome → b'.value.isSome

theorem Binding.Continues.refl (b : Binding) : b.Continues b :=
  ⟨rfl, rfl, rfl, id⟩

theorem Binding.Continues.trans {b b' b'' : Binding} (h : b.Continues b') (h' : b'.Continues b'') :
    b.Continues b'' :=
  ⟨h'.mutable.trans h.mutable, h'.deletable.trans h.deletable, h'.strict.trans h.strict,
    h'.initialized ∘ h.initialized⟩

namespace BindingOperation

/-- What an operation can do to a binding: nothing, give it a value if it has one already or is
being initialised, or delete it if that is allowed. -/
theorem after_cases (operation : BindingOperation) (b : Binding) :
    operation.after (some b) = some b ∨
      (∃ v, operation.after (some b) = some { b with value := some v } ∧
        (b.value.isSome ∨ operation = .init operation.name v)) ∨
      operation.after (some b) = none ∧ b.deletable = true := by
  cases operation with
  | createMutable | createImmutable | probe => exact .inl rfl
  | init name v => exact .inr (.inl ⟨v, rfl, .inr rfl⟩)
  | set name v strict =>
      simp only [after, next]
      by_cases hvalue : b.value.isNone = true
      · rw [if_pos hvalue]
        exact .inl rfl
      · rw [if_neg hvalue]
        by_cases hmutable : b.mutable = true
        · rw [if_pos hmutable]
          exact .inr (.inl ⟨v, rfl, .inl (by simpa [Option.isSome_iff_ne_none] using hvalue)⟩)
        · rw [if_neg hmutable]
          by_cases hstrict : (strict || b.strict) = true
          · rw [if_pos hstrict]
            exact .inl rfl
          · rw [if_neg hstrict]
            exact .inl rfl
  | get name strict =>
      simp only [after, next]
      cases b.value <;> exact .inl rfl
  | delete name =>
      simp only [after, next]
      by_cases hdeletable : b.deletable = true
      · rw [if_pos hdeletable]
        exact .inr (.inr ⟨rfl, hdeletable⟩)
      · rw [if_neg hdeletable]
        exact .inl rfl

/-- A binding that an operation leaves there continues its life. -/
theorem continues_of_after {operation : BindingOperation} {b b' : Binding}
    (h : operation.after (some b) = some b') : b.Continues b' := by
  rcases operation.after_cases b with hsame | ⟨v, hvalue, -⟩ | ⟨hgone, -⟩
  · rw [hsame] at h
    cases h
    exact .refl b
  · rw [hvalue] at h
    cases h
    exact ⟨rfl, rfl, rfl, fun _ => rfl⟩
  · rw [hgone] at h
    cases h

variable {σ : Type} [Embedding σ] {w : World σ} {s : ScopeId} {name : String} {b : Binding}

/-- A binding that is still there after an operation continues its life, and only initialising it
initialises it. -/
theorem run_continues (E : Engine σ) (h : w.IsDeclarative s) (hb : w.binding? s name = some b)
    {operation : BindingOperation} {b' : Binding}
    (hb' : ((operation.run E s).after w).binding? s name = some b') :
    b.Continues b' ∧ (b.value = none → (∀ v, operation ≠ .init name v) → b'.value = none) := by
  rw [binding?_run E h, hb] at hb'
  by_cases hname : operation.name = name
  · rw [if_pos hname] at hb'
    refine ⟨continues_of_after hb', fun hvalue hinit => ?_⟩
    rcases operation.after_cases b with hsame | ⟨v, -, hsome | heq⟩ | ⟨hgone, -⟩
    · rw [hsame] at hb'
      cases hb'
      exact hvalue
    · rw [hvalue] at hsome
      cases hsome
    · rw [hname] at heq
      exact absurd heq (hinit v)
    · rw [hgone] at hb'
      cases hb'
  · rw [if_neg hname] at hb'
    cases hb'
    exact ⟨.refl b, fun hvalue _ => hvalue⟩

/-- A binding that is there all along lives on. -/
theorem runAll_continues (E : Engine σ) (h : w.IsDeclarative s)
    (hb : w.binding? s name = some b) {operations : List BindingOperation}
    (hpresent : ∀ earlier, earlier <+: operations →
      ((runAll E s earlier w).binding? s name).isSome) :
    ∃ b', (runAll E s operations w).binding? s name = some b' ∧ b.Continues b' ∧
      (b.value = none → (∀ v, .init name v ∉ operations) → b'.value = none) := by
  induction operations generalizing w b with
  | nil => exact ⟨b, hb, .refl b, fun hvalue _ => hvalue⟩
  | cons operation operations ih =>
      obtain ⟨b₁, hb₁⟩ := Option.isSome_iff_exists.1
        (hpresent [operation] (List.prefix_append [operation] operations))
      obtain ⟨hcontinues, huninit⟩ := run_continues E h hb hb₁
      obtain ⟨b', hb', hcontinues', huninit'⟩ := ih (isDeclarative_run E h operation) hb₁
        fun earlier hearlier =>
          hpresent (operation :: earlier) (List.cons_prefix_cons.2 ⟨rfl, hearlier⟩)
      refine ⟨b', hb', hcontinues.trans hcontinues', fun hvalue hinit => ?_⟩
      refine huninit' (huninit hvalue fun v heq => ?_) fun v hmem => ?_
      · exact hinit v (heq ▸ List.mem_cons_self)
      · exact hinit v (List.mem_cons_of_mem _ hmem)

/-- A binding that cannot be deleted lives on. -/
theorem runAll_permanent (E : Engine σ) (h : w.IsDeclarative s)
    (hb : w.binding? s name = some b) (hdeletable : b.deletable = false)
    (operations : List BindingOperation) :
    ∃ b', (runAll E s operations w).binding? s name = some b' ∧ b.Continues b' := by
  induction operations generalizing w b with
  | nil => exact ⟨b, hb, .refl b⟩
  | cons operation operations ih =>
      obtain ⟨b₁, hb₁⟩ : ∃ b₁, ((operation.run E s).after w).binding? s name = some b₁ := by
        rw [binding?_run E h, hb]
        split
        · rcases operation.after_cases b with hsame | ⟨v, hvalue, -⟩ | ⟨-, hdeleted⟩
          · exact ⟨b, hsame⟩
          · exact ⟨_, hvalue⟩
          · rw [hdeletable] at hdeleted
            cases hdeleted
        · exact ⟨b, rfl⟩
      obtain ⟨hcontinues, -⟩ := run_continues E h hb hb₁
      obtain ⟨b', hb', hcontinues'⟩ :=
        ih (isDeclarative_run E h operation) hb₁ (hcontinues.deletable.trans hdeletable)
      exact ⟨b', hb', hcontinues.trans hcontinues'⟩

/-! ## What an operation answers -/

/-- An operation that fails by the binding of its name fails and changes nothing. -/
theorem run_error (E : Engine σ) (h : w.IsDeclarative s) {operation : BindingOperation} {e : Error}
    (hnext : operation.next (w.binding? s operation.name) = .error e) :
    operation.run E s w = .error (.thrown e) w := by
  obtain ⟨bs, hrecord⟩ := h.record
  have hdoes := run_does E hrecord operation
  simp only [World.binding?, hrecord, Record.slots] at hnext
  rw [hnext] at hdoes
  exact hdoes

/-- An operation that leaves the binding of its name answers and changes nothing. -/
theorem run_answer (E : Engine σ) (h : w.IsDeclarative s) {operation : BindingOperation}
    {answer : Answer} (hnext : operation.next (w.binding? s operation.name) =
      .ok (answer, w.binding? s operation.name)) :
    operation.run E s w = .ok answer w := by
  obtain ⟨bs, hrecord⟩ := h.record
  have hdoes := run_does E hrecord operation
  simp only [World.binding?, hrecord, Record.slots] at hnext
  rw [hnext] at hdoes
  obtain ⟨bs', hrun, -, hsame⟩ := hdoes
  rw [hrun, hsame rfl, World.setRecord_self hrecord]

/-- What a name without a value answers: it cannot be read or assigned to, and probing it finds
nothing. -/
structure Uninitialized (E : Engine σ) (s : ScopeId) (name : String) (w : World σ) : Prop where
  get : ∀ strict, ((BindingOperation.get name strict).run E s).Throws .reference w
  set : ∀ v strict, ((BindingOperation.set name v strict).run E s).Throws .reference w
  probe : ∀ strict, (BindingOperation.probe name strict).run E s w = .ok (.binding none) w

theorem uninitialized_of_value (E : Engine σ) (h : w.IsDeclarative s)
    (hb : w.binding? s name = some b) (hvalue : b.value = none) : Uninitialized E s name w where
  get strict := ⟨.uninitialized name, rfl, run_error E h (by
    show next _ (w.binding? s name) = _
    rw [hb]
    simp only [next, hvalue])⟩
  set v strict := ⟨.uninitialized name, rfl, run_error E h (by
    show next _ (w.binding? s name) = _
    rw [hb]
    simp only [next, hvalue, Option.isNone_none, if_true])⟩
  probe strict := run_answer E h (by
    show next _ (w.binding? s name) = .ok (_, w.binding? s name)
    rw [hb]
    simp only [next, Option.bind_some, hvalue, Option.map_none])

/-- Assigning to a constant fails or does nothing, and never changes anything. -/
theorem run_set_constant (E : Engine σ) (h : w.IsDeclarative s)
    (hb : w.binding? s name = some b) (hmutable : b.mutable = false) (v : Value) (strict : Bool) :
    (set name v strict).run E s w =
      if b.value.isNone then .error (.thrown (.uninitialized name)) w
      else if strict || b.strict then .error (.thrown (.constantAssigned name)) w
      else .ok .done w := by
  have hnext : (set name v strict).next (w.binding? s name) =
      if b.value.isNone then .error (.uninitialized name)
      else if strict || b.strict then .error (.constantAssigned name)
      else .ok (.done, w.binding? s name) := by
    rw [hb]
    simp only [next, hmutable, Bool.false_eq_true, if_false]
  split
  · next hvalue => exact run_error E h (hnext.trans (if_pos hvalue))
  · next hvalue =>
    rw [if_neg hvalue] at hnext
    split
    · next hstrict => exact run_error E h (hnext.trans (if_pos hstrict))
    · next hstrict => exact run_answer E h (hnext.trans (if_neg hstrict))

/-- Assigning to a constant changes nothing, and is a type error exactly if the constant has a value
and it or the assignment is strict. -/
theorem set_constant (E : Engine σ) (h : w.IsDeclarative s) (hb : w.binding? s name = some b)
    (hmutable : b.mutable = false) (v : Value) (strict : Bool) :
    ((set name v strict).run E s).after w = w ∧
      (((set name v strict).run E s).Throws .type w ↔
        (strict || b.strict) = true ∧ b.value.isSome = true) := by
  have hrun := run_set_constant E h hb hmutable v strict
  by_cases hvalue : b.value.isNone = true
  · rw [if_pos hvalue] at hrun
    refine ⟨Action.after_of_error hrun, ?_, fun hsome => ?_⟩
    · rintro ⟨e, hkind, herror⟩
      rw [hrun] at herror
      cases herror
      cases hkind
    · rw [Option.isNone_iff_eq_none.1 hvalue] at hsome
      cases hsome.2
  · rw [if_neg hvalue] at hrun
    have hsome : b.value.isSome = true := by simpa [Option.isSome_iff_ne_none] using hvalue
    by_cases hstrict : (strict || b.strict) = true
    · rw [if_pos hstrict] at hrun
      exact ⟨Action.after_of_error hrun, fun _ => ⟨hstrict, hsome⟩, fun _ => ⟨_, rfl, hrun⟩⟩
    · rw [if_neg hstrict] at hrun
      refine ⟨Action.after_of_ok hrun, ?_, fun hboth => absurd hboth.1 hstrict⟩
      rintro ⟨e, -, herror⟩
      rw [hrun] at herror
      cases herror

/-- **The life of a declared binding.** Whatever operations are carried out on an environment of
declared bindings, in any order and over any names:

* the operations on other names make no difference to the binding of a name;
* a binding that is there all along keeps its flags, stays initialised once it is, and is
  initialised by nothing but its initialisation; one that cannot be deleted is there all along;
* a name without a binding gets one with the flags that it is created with, and without a value;
* as long as a binding has no value, reading it and assigning to it are reference errors that change
  nothing, and probing finds nothing;
* assigning to a constant changes nothing, and is a type error exactly if the constant has a value
  and it or the assignment is strict. -/
theorem life_of_bindings (E : Engine σ) (h : w.IsDeclarative s)
    (operations : List BindingOperation) (name : String) :
    let reached := runAll E s operations w
    reached.binding? s name =
        (runAll E s (operations.filter (·.name = name)) w).binding? s name ∧
      (∀ b, w.binding? s name = some b →
        ((∀ earlier, earlier <+: operations →
            ((runAll E s earlier w).binding? s name).isSome) →
          ∃ b', reached.binding? s name = some b' ∧ b.Continues b' ∧
            (b.value = none → (∀ v, .init name v ∉ operations) → b'.value = none)) ∧
        (b.deletable = false →
          ∃ b', reached.binding? s name = some b' ∧ b.Continues b')) ∧
      (reached.binding? s name = none → ∀ deletable strict,
        (((createMutable name deletable).run E s).after reached).binding? s name =
            some ⟨none, true, deletable, false⟩ ∧
          (((createImmutable name strict).run E s).after reached).binding? s name =
            some ⟨none, false, false, strict⟩) ∧
      ∀ b, reached.binding? s name = some b →
        (b.value = none → Uninitialized E s name reached) ∧
          (b.mutable = false → ∀ v strict,
            ((set name v strict).run E s).after reached = reached ∧
              (((set name v strict).run E s).Throws .type reached ↔
                (strict || b.strict) = true ∧ b.value.isSome = true)) ∧
          (b.deletable = false → (delete name).run E s reached = .ok (.flag false) reached) := by
  intro reached
  have hreached : reached.IsDeclarative s := isDeclarative_runAll E h operations
  refine ⟨?_, fun b hb => ⟨fun hpresent => runAll_continues E h hb hpresent, fun hdeletable =>
    runAll_permanent E h hb hdeletable operations⟩, fun hnone deletable strict => ⟨?_, ?_⟩,
    fun b hb => ⟨uninitialized_of_value E hreached hb, fun hmutable v strict => ?_,
      fun hdeletable => ?_⟩⟩
  · rw [binding?_runAll E h, binding?_runAll E h, List.filter_filter]
    simp only [Bool.and_self]
  · rw [binding?_run E hreached, hnone]
    exact if_pos rfl
  · rw [binding?_run E hreached, hnone]
    exact if_pos rfl
  · exact set_constant E hreached hb hmutable v strict
  · refine run_answer E hreached ?_
    show next _ (reached.binding? s name) = .ok (_, reached.binding? s name)
    rw [hb]
    simp only [next, hdeletable, Bool.false_eq_true, if_false]

/-- A constant that is created, read too early, initialised, and assigned to in vain. -/
theorem life_of_fresh_constant :
    let w : World Unit :=
      { World.empty none (.below 0) () with scopes := #[⟨.declarative .empty, none⟩] }
    let E : Engine Unit := .exhausted
    let created := runAll E ⟨0⟩ [.createImmutable "x" true] w
    let initialized := runAll E ⟨0⟩ [.createImmutable "x" true, .init "x" .null] w
    Uninitialized E ⟨0⟩ "x" created ∧
      ((set "x" (.boolean true) false).run E ⟨0⟩).Throws .type initialized := by
  intro w E created initialized
  have h : w.IsDeclarative ⟨0⟩ := ⟨by decide, .empty, rfl⟩
  obtain ⟨-, -, -, hcreated⟩ := life_of_bindings E h [.createImmutable "x" true] "x"
  obtain ⟨-, -, -, hinitialized⟩ :=
    life_of_bindings E h [.createImmutable "x" true, .init "x" .null] "x"
  refine ⟨(hcreated ⟨none, false, false, true⟩ rfl).1 rfl, ?_⟩
  exact (((hinitialized ⟨some .null, false, false, true⟩ rfl).2.1 rfl _ _).2).2 ⟨rfl, rfl⟩

end BindingOperation

end EcmaCore
