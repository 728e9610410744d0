import EcmaCore.Engine.Scope
import EcmaCore.Proofs.Action
import EcmaCore.Proofs.World.Change
import EcmaCore.Proofs.World.Lookup

/-!
# Runs that agree

Two actions that run in two related worlds agree if they end alike: both with a result,
usually the same, or both with the same failure, in worlds that are related again. An `Agreement` is
a relation between worlds that operations on objects and imports cannot tell apart. If user
code cannot tell them apart either, which `Engine.Agree` says, then whatever is put together
from such operations and from calls agrees.

This is the counterpart for two runs of what `Guarantee` is for one: one lemma for each
way of putting actions together, and one for each operation.

User code at large can tell most worlds apart, but a run asks only some of it, and only in some
worlds. `Engine.Covers` says that an operation asks no more of an engine than certain queries, and
`Engine.only` is an engine that answers these and refuses all others with a failure of its own.
Agreement is therefore up to that failure: two engines that agree on the queries they answer agree.

## Main results

* `Action.AgreeOn.bindOf`, `Agreement.holdingOf`: agreement of actions that are put together.
* `Agreement.getProperty`, `Agreement.setProperty`: reading and writing properties.
* `Agreement.backingGet`, `Agreement.readImport`: names that are properties or imports.
* `Engine.endAlike_of_covers`: only what runs ask for has to end alike.
-/

namespace EcmaCore

variable {σ α β γ δ : Type} {R S : World σ → World σ → Prop} {w w' : World σ}
  {refused : Failure}

/-- There are more than two failures. -/
theorem Failure.exists_ne (e e' : Failure) : ∃ e₁, e₁ ≠ e ∧ e₁ ≠ e' := by
  by_cases h : Failure.exhausted = e ∨ Failure.exhausted = e'
  · by_cases h₁ : Failure.thrown .noThis = e ∨ Failure.thrown .noThis = e'
    · refine ⟨.thrown .derivedResult, ?_⟩
      grind
    · exact ⟨_, not_or.1 h₁⟩
  · exact ⟨_, not_or.1 h⟩

namespace Action

/-- Two runs end alike: with results that correspond or with the same failure, in worlds that are
related. -/
inductive EndAlike (R : World σ → World σ → Prop) (Q : World σ → α → β → Prop) :
    EStateM.Result Failure (World σ) α → EStateM.Result Failure (World σ) β → Prop
  | ok {a : α} {b : β} {w w' : World σ} (h : R w w') (hab : Q w a b) :
      EndAlike R Q (.ok a w) (.ok b w')
  | error (e : Failure) {w w' : World σ} (h : R w w') : EndAlike R Q (.error e w) (.error e w')

/-- Two runs end alike and with the same result. -/
abbrev EndSame (R : World σ → World σ → Prop) (r r' : EStateM.Result Failure (World σ) α) : Prop :=
  EndAlike R (fun _ a b => b = a) r r'

/-- A run ends with a failure. -/
def FailsWith (e : Failure) (act : Action σ α) (w : World σ) : Prop :=
  ∃ u, act w = .error e u

/-- Two actions, each in a world of its own, end alike unless one of them is refused something. -/
def AgreeOn (refused : Failure) (R : World σ → World σ → Prop) (Q : World σ → α → β → Prop)
    (act : Action σ α) (act' : Action σ β) (w w' : World σ) : Prop :=
  act.FailsWith refused w ∨ act'.FailsWith refused w' ∨ EndAlike R Q (act w) (act' w')

/-- Two actions, each in a world of its own, end alike and with the same result unless one of them
is refused something. -/
abbrev Agree (refused : Failure) (R : World σ → World σ → Prop) (act act' : Action σ α)
    (w w' : World σ) : Prop :=
  AgreeOn refused R (fun _ a b => b = a) act act' w w'

/-- A run fails in one way at most. -/
theorem exists_failure (act : Action σ α) (w : World σ) :
    ∃ e, ∀ e', act.FailsWith e' w → e' = e := by
  cases hrun : act w with
  | ok a u =>
      refine ⟨.exhausted, ?_⟩
      rintro e' ⟨u', hu'⟩
      rw [hrun] at hu'
      cases hu'
  | error e u =>
      refine ⟨e, ?_⟩
      rintro e' ⟨u', hu'⟩
      rw [hrun] at hu'
      cases hu'
      rfl

theorem FailsWith.bind {act : Action σ α} (h : act.FailsWith refused w) (next : α → Action σ γ) :
    (act >>= next).FailsWith refused w := by
  obtain ⟨u, hu⟩ := h
  exact ⟨u, bind_error hu⟩

theorem FailsWith.holding {entities : List Entity} {act : Action σ α}
    (h : act.FailsWith refused { w with held := entities ++ w.held }) :
    (act.holding entities).FailsWith refused w := by
  obtain ⟨u, hu⟩ := h
  refine ⟨{ u with held := w.held }, ?_⟩
  rw [holding_apply, hu]

/-! ## Putting actions together -/

namespace AgreeOn

variable {Q : World σ → α → β → Prop} {Q' : World σ → γ → δ → Prop} {w₁ w₁' : World σ}

theorem of_ends {act : Action σ α} {act' : Action σ β} (h : EndAlike R Q (act w) (act' w')) :
    AgreeOn refused R Q act act' w w' :=
  .inr (.inr h)

/-- Only how the actions run in their worlds matters. -/
theorem congr {act act₁ : Action σ α} {act' act₁' : Action σ β} (hact : act w = act₁ w₁)
    (hact' : act' w' = act₁' w₁') (h : AgreeOn refused R Q act₁ act₁' w₁ w₁') :
    AgreeOn refused R Q act act' w w' := by
  rw [AgreeOn, FailsWith, FailsWith, hact, hact']
  exact h

/-- One action after another, where the second ones may lead to another relation. -/
theorem bindInto {act : Action σ α} {act' : Action σ β} {next : α → Action σ γ}
    {next' : β → Action σ δ}
    (hact : AgreeOn refused R Q act act' w w') (hsub : ∀ u u', R u u' → S u u')
    (hnext : ∀ a b u u', R u u' → Q u a b → AgreeOn refused S Q' (next a) (next' b) u u') :
    AgreeOn refused S Q' (act >>= next) (act' >>= next') w w' := by
  rcases hact with hfails | hfails' | hends
  · exact .inl (hfails.bind next)
  · exact .inr (.inl (hfails'.bind next'))
  generalize hrun : act w = result at hends
  generalize hrun' : act' w' = result' at hends
  cases hends with
  | ok h hab =>
      exact .congr (bind_ok hrun) (bind_ok hrun') (hnext _ _ _ _ h hab)
  | error e h =>
      refine .of_ends ?_
      rw [bind_error hrun, bind_error hrun']
      exact .error e (hsub _ _ h)

/-- One action after another, with results of the first ones that correspond. -/
theorem bindOf {act : Action σ α} {act' : Action σ β} {next : α → Action σ γ}
    {next' : β → Action σ δ}
    (hact : AgreeOn refused R Q act act' w w')
    (hnext : ∀ a b u u', R u u' → Q u a b → AgreeOn refused R Q' (next a) (next' b) u u') :
    AgreeOn refused R Q' (act >>= next) (act' >>= next') w w' :=
  hact.bindInto (fun _ _ h => h) hnext

/-- One action after another, with the same result of the first ones. -/
theorem bind {act act' : Action σ α} {next : α → Action σ γ} {next' : α → Action σ δ}
    (hact : Agree refused R act act' w w')
    (hnext : ∀ a u u', R u u' → AgreeOn refused R Q' (next a) (next' a) u u') :
    AgreeOn refused R Q' (act >>= next) (act' >>= next') w w' := by
  refine bindOf hact fun a b u u' h hab => ?_
  rw [hab]
  exact hnext a u u' h

/-- Actions that look at their worlds first. -/
theorem look {next : World σ → Action σ α} {next' : World σ → Action σ β}
    (h : AgreeOn refused R Q (next w) (next' w') w w') :
    AgreeOn refused R Q (MonadState.get >>= next) (MonadState.get >>= next') w w' :=
  h

/-- Choosing between two actions by the same condition. -/
theorem ite {c : Prop} [Decidable c] {act other : Action σ α} {act' other' : Action σ β}
    (hact : AgreeOn refused R Q act act' w w') (hother : AgreeOn refused R Q other other' w w') :
    AgreeOn refused R Q (if c then act else other) (if c then act' else other') w w' := by
  split
  · exact hact
  · exact hother

theorem pure (a : α) (h : R w w') : Agree refused R (Pure.pure a) (Pure.pure a) w w' :=
  .of_ends (.ok h rfl)

theorem fail (e : Error) (h : R w w') :
    AgreeOn refused R Q (Action.fail e) (Action.fail e) w w' :=
  .of_ends (.error _ h)

theorem ofExcept (x : Except Error α) (h : R w w') :
    Agree refused R (Action.ofExcept x) (Action.ofExcept x) w w' := by
  cases x with
  | ok a => exact .pure a h
  | error e => exact .fail e h

/-- Changes that answer the same. -/
theorem change {f f' : World σ → α × World σ} (hanswer : (f' w').1 = (f w).1)
    (h : R (f w).2 (f' w').2) : Agree refused R (Action.change f) (Action.change f') w w' :=
  .of_ends (.ok h hanswer)

end AgreeOn

end Action

/-! ## What is asked of engines -/

/-- What can be asked of an engine. -/
inductive Query where
  | call (f : ObjectId) (this : Value) (args : List Value)
  | construct (f : ObjectId) (args : List Value) (newTarget : ObjectId)
  | readExport (m : ModuleId) (name : String) (strict : Bool)

namespace Engine

variable {E E' : Engine σ} {asked asked' : Query → World σ → Prop}
  {op op' : Engine σ → Action σ α}

/-- Carries out a query. -/
def answer (E : Engine σ) : Query → Action σ Value
  | .call f this args => E.call f this args
  | .construct f args newTarget => E.construct f args newTarget
  | .readExport m name strict => E.readExport m name strict

/-- An operation asks for nothing but the given queries in a world: it runs in the same way with
any engine that answers these as the first one does. -/
def Covers (E : Engine σ) (asked : Query → World σ → Prop) (op : Engine σ → Action σ α)
    (w : World σ) : Prop :=
  ∀ E₁ : Engine σ, (∀ q u, asked q u → E₁.answer q u = E.answer q u) → op E₁ w = op E w

/-- An operation that depends on a single query asks for nothing else. -/
theorem Covers.of_answer {q : Query} {u : World σ}
    (next : EStateM.Result Failure (World σ) Value → EStateM.Result Failure (World σ) α)
    (h : ∀ E₁ : Engine σ, op E₁ w = next (E₁.answer q u)) :
    E.Covers (fun q₁ u₁ => q₁ = q ∧ u₁ = u) op w := by
  intro E₁ hE₁
  rw [h, h, hE₁ q u ⟨rfl, rfl⟩]

/-- An operation that does not depend on the engine asks for nothing. -/
theorem Covers.of_const {r : EStateM.Result Failure (World σ) α}
    (h : ∀ E₁ : Engine σ, op E₁ w = r) : E.Covers (fun _ _ => False) op w :=
  fun E₁ _ => (h E₁).trans (h E).symm

open Classical in
/-- An engine that answers the given queries as another one does, and refuses all others. -/
noncomputable def only (E : Engine σ) (asked : Query → World σ → Prop) (refused : Failure) :
    Engine σ where
  call f this args w :=
    if asked (.call f this args) w then E.call f this args w else .error refused w
  construct f args newTarget w :=
    if asked (.construct f args newTarget) w then E.construct f args newTarget w
    else .error refused w
  readExport m name strict w :=
    if asked (.readExport m name strict) w then E.readExport m name strict w else .error refused w

theorem answer_only {q : Query} (h : asked q w) :
    (E.only asked refused).answer q w = E.answer q w := by
  cases q <;> exact if_pos h

theorem answer_only_of_not {q : Query} (h : ¬asked q w) :
    (E.only asked refused).answer q w = .error refused w := by
  cases q <;> exact if_neg h

/-- What two engines run ends alike, unless one of them refuses to. -/
def Agree (refused : Failure) (R : World σ → World σ → Prop) (E E' : Engine σ) : Prop :=
  ∀ {w w'} q, R w w' → Action.Agree refused R (E.answer q) (E'.answer q) w w'

theorem agree_only (refused : Failure)
    (h : ∀ q u u', asked q u → asked' q u' → R u u' →
      Action.EndSame R (E.answer q u) (E'.answer q u')) :
    (E.only asked refused).Agree refused R (E'.only asked' refused) := by
  intro w w' q hw
  by_cases hq : asked q w
  · by_cases hq' : asked' q w'
    · refine .of_ends ?_
      rw [answer_only hq, answer_only hq']
      exact h q w w' hq hq' hw
    · exact .inr (.inl ⟨w', answer_only_of_not hq'⟩)
  · exact .inl ⟨w, answer_only_of_not hq⟩

/-- Operations that agree in related worlds whenever their engines do end alike if only what they
ask for does. -/
theorem endAlike_of_covers (hw : R w w')
    (hop : ∀ {refused E₁ E₁'}, Engine.Agree refused R E₁ E₁' → ∀ {u u'}, R u u' →
      Action.Agree refused S (op E₁) (op' E₁') u u')
    (hcovers : E.Covers asked op w) (hcovers' : E'.Covers asked' op' w')
    (halike : ∀ q u u', asked q u → asked' q u' → R u u' →
      Action.EndSame R (E.answer q u) (E'.answer q u')) :
    Action.EndSame S (op E w) (op' E' w') := by
  -- what is refused fails in a way in which neither run does
  obtain ⟨e, honly⟩ := Action.exists_failure (op E) w
  obtain ⟨e', honly'⟩ := Action.exists_failure (op' E') w'
  obtain ⟨refused, hne, hne'⟩ := Failure.exists_ne e e'
  have hrun : op (E.only asked refused) w = op E w := hcovers _ fun _ _ hq => answer_only hq
  have hrun' : op' (E'.only asked' refused) w' = op' E' w' :=
    hcovers' _ fun _ _ hq => answer_only hq
  have hagree := hop (agree_only refused halike) hw
  rw [Action.Agree, Action.AgreeOn, Action.FailsWith, Action.FailsWith, hrun, hrun'] at hagree
  rcases hagree with hfails | hfails' | hends
  · exact absurd (honly refused hfails) hne
  · exact absurd (honly' refused hfails') hne'
  · exact hends

end Engine

/-- A relation between worlds with the same objects and modules that changes of objects, settling
and holding on to entities respect. -/
structure Agreement [Embedding σ] (R : World σ → World σ → Prop) : Prop where
  objects : ∀ {w w'}, R w w' → w'.objects = w.objects
  modules : ∀ {w w'}, R w w' → w'.modules = w.modules
  modifyObject : ∀ {w w'}, R w w' → ∀ o f, R (w.modifyObject o f) (w'.modifyObject o f)
  settle : ∀ {w w'}, R w w' → R w.settle w'.settle
  hold : ∀ {w w'}, R w w' → ∀ entities, R { w with held := entities ++ w.held }
    { w' with held := entities ++ w'.held }
  letGo : ∀ {w w' u u'}, R w w' → R u u' →
    R { u with held := w.held } { u' with held := w'.held }

namespace Agreement

variable [Embedding σ] {E E' : Engine σ}

/-! ## What related worlds have in common -/

theorem object (hR : Agreement R) (h : R w w') (o : ObjectId) : w'.object o = w.object o := by
  rw [World.object, World.object, hR.objects h]

theorem own (hR : Agreement R) (h : R w w') (o : ObjectId) (key : PropertyKey) :
    w'.own o key = w.own o key := by
  rw [World.own, World.own, hR.object h]

theorem hasOwn (hR : Agreement R) (h : R w w') (o : ObjectId) (key : PropertyKey) :
    w'.hasOwn o key = w.hasOwn o key := by
  rw [World.hasOwn, World.hasOwn, hR.own h]

theorem lookup (hR : Agreement R) (h : R w w') (o : ObjectId) (key : PropertyKey) :
    w'.lookup o key = w.lookup o key :=
  World.lookup_congr (hR.objects h) o key

theorem hasProperty (hR : Agreement R) (h : R w w') (o : ObjectId) (key : PropertyKey) :
    w'.hasProperty o key = w.hasProperty o key := by
  rw [World.hasProperty, World.hasProperty, hR.lookup h]

theorem module (hR : Agreement R) (h : R w w') (m : ModuleId) : w'.module m = w.module m := by
  rw [World.module, World.module, hR.modules h]

/-! ## Holding on to entities -/

/-- What is run while more is held on to agrees if it does so inside, where the two runs may hold on
to different entities. -/
theorem holdingOf (hR : Agreement R) {Q : World σ → α → β → Prop} {entities entities' : List Entity}
    {act : Action σ α} {act' : Action σ β} (h : R w w')
    (hQ : ∀ u held a b, Q u a b → Q { u with held := held } a b)
    (hact : Action.AgreeOn refused R Q act act' { w with held := entities ++ w.held }
      { w' with held := entities' ++ w'.held }) :
    Action.AgreeOn refused R Q (act.holding entities) (act'.holding entities') w w' := by
  rcases hact with hfails | hfails' | hends
  · exact .inl hfails.holding
  · exact .inr (.inl hfails'.holding)
  refine .of_ends ?_
  rw [Action.holding_apply, Action.holding_apply]
  generalize act { w with held := entities ++ w.held } = result at hends ⊢
  generalize act' { w' with held := entities' ++ w'.held } = result' at hends ⊢
  cases hends with
  | ok hu hab => exact .ok (hR.letGo h hu) (hQ _ _ _ _ hab)
  | error e hu => exact .error e (hR.letGo h hu)

theorem holding (hR : Agreement R) (entities : List Entity) {act act' : Action σ α}
    (h : R w w') (hact : ∀ {u u'}, R u u' → Action.Agree refused R act act' u u') :
    Action.Agree refused R (act.holding entities) (act'.holding entities) w w' :=
  hR.holdingOf h (fun _ _ _ _ hab => hab) (hact (hR.hold h entities))

/-! ## Properties -/

theorem getFor (hR : Agreement R) (hE : E.Agree refused R E') (h : R w w') (o : ObjectId)
    (key : PropertyKey) (receiver : Value) :
    Action.Agree refused R (E.getFor o key receiver) (E'.getFor o key receiver) w w' := by
  unfold Engine.getFor
  refine .look ?_
  rw [hR.lookup h]
  split
  · exact .pure _ h
  · exact .pure _ h
  · exact .pure _ h
  · exact hR.holding _ h fun hu => hE (.call ..) hu

theorem getProperty (hR : Agreement R) (hE : E.Agree refused R E') (h : R w w') (o : ObjectId)
    (key : PropertyKey) :
    Action.Agree refused R (E.getProperty o key) (E'.getProperty o key) w w' :=
  hR.getFor hE h o key _

theorem define (hR : Agreement R) (h : R w w') (o : ObjectId) (key : PropertyKey)
    (update : PropertyUpdate) :
    Action.Agree refused R (Action.change (·.define o key update))
      (Action.change (·.define o key update)) w w' := by
  refine .change ?_ ?_
  · unfold World.define
    rw [hR.object h]
    cases (w.object o).define key update <;> rfl
  · rw [World.define_eq, World.define_eq]
    exact hR.modifyObject h o _

/-- Deleting a property. -/
theorem delete (hR : Agreement R) (h : R w w') (o : ObjectId) (key : PropertyKey) :
    (w'.delete o key).1 = (w.delete o key).1 ∧ R (w.delete o key).2 (w'.delete o key).2 := by
  refine ⟨?_, ?_⟩
  · unfold World.delete
    rw [hR.object h]
    cases (w.object o).delete key <;> rfl
  · rw [World.delete_eq, World.delete_eq]
    exact hR.modifyObject h o _

theorem writeOwn (hR : Agreement R) (h : R w w') (receiver : ObjectId) (key : PropertyKey)
    (v : Value) :
    Action.Agree refused R (Engine.writeOwn receiver key v) (Engine.writeOwn receiver key v)
      w w' := by
  unfold Engine.writeOwn
  refine .look ?_
  rw [hR.own h]
  split
  · exact .pure _ h
  · exact .pure _ h
  · exact hR.define h _ _ _
  · exact hR.define h _ _ _

theorem setFor (hR : Agreement R) (hE : E.Agree refused R E') (h : R w w') (o : ObjectId)
    (key : PropertyKey) (v receiver : Value) :
    Action.Agree refused R (E.setFor o key v receiver) (E'.setFor o key v receiver) w w' := by
  unfold Engine.setFor
  refine .look ?_
  rw [hR.lookup h]
  split
  · exact .pure _ h
  · exact .bind (hR.holding _ h fun hu => hE (.call ..) hu) fun _ _ _ hu => .pure _ hu
  · exact .pure _ h
  -- a property that holds data and none at all: the receiver gets the value
  all_goals
    cases receiver with
    | object r => exact hR.writeOwn h r key v
    | _ => exact .pure _ h

theorem setProperty (hR : Agreement R) (hE : E.Agree refused R E') (h : R w w') (o : ObjectId)
    (key : PropertyKey) (v : Value) (mustSucceed : Bool) :
    Action.Agree refused R (E.setProperty o key v mustSucceed) (E'.setProperty o key v mustSucceed)
      w w' := by
  unfold Engine.setProperty
  exact .bind (hR.setFor hE h o key v _) fun _ _ _ hu => .ite (.fail _ hu) (.pure _ hu)

/-! ## Names in backing objects and modules -/

theorem backingHas (hR : Agreement R) (hE : E.Agree refused R E') (h : R w w') (backing : ObjectId)
    (isWith : Bool) (name : String) :
    Action.Agree refused R (E.backingHas backing isWith name) (E'.backingHas backing isWith name)
      w w' := by
  unfold Engine.backingHas
  refine .look ?_
  rw [hR.hasProperty h]
  refine .ite (.pure _ h) (.ite (.pure _ h) ?_)
  refine .bind (hR.getProperty hE h _ _) fun unscopables u u' hu => ?_
  cases unscopables with
  | object hidden =>
      exact .bind (hR.holding _ hu fun hv => hR.getProperty hE hv _ _) fun _ _ _ hv => .pure _ hv
  | _ => exact .pure _ hu

theorem backingGet (hR : Agreement R) (hE : E.Agree refused R E') (h : R w w') (backing : ObjectId)
    (name : String) (strict : Bool) :
    Action.Agree refused R (E.backingGet backing name strict) (E'.backingGet backing name strict)
      w w' := by
  unfold Engine.backingGet
  refine .look ?_
  rw [hR.hasProperty h]
  exact .ite (hR.getProperty hE h _ _) (.ite (.fail _ h) (.pure _ h))

theorem backingSet (hR : Agreement R) (hE : E.Agree refused R E') (h : R w w') (backing : ObjectId)
    (name : String) (v : Value) (strict : Bool) :
    Action.Agree refused R (E.backingSet backing name v strict)
      (E'.backingSet backing name v strict) w w' := by
  unfold Engine.backingSet
  refine .look ?_
  rw [hR.hasProperty h]
  have hset {u u' : World σ} (hu : R u u') : Action.Agree refused R
      (do let _ ← E.setProperty backing name v strict; return ())
      (do let _ ← E'.setProperty backing name v strict; return ()) u u' :=
    .bind (hR.setProperty hE hu _ _ _ _) fun _ _ _ hv => .pure _ hv
  exact .ite (.bind (.fail _ h) fun _ _ _ hu => hset hu) (hset h)

theorem readImport (hR : Agreement R) (hE : E.Agree refused R E') (h : R w w') (name : String)
    (i : Import) : Action.Agree refused R (E.readImport name i) (E'.readImport name i) w w' := by
  unfold Engine.readImport
  have hsettle : Action.Agree refused R (Action.settle : Action σ Unit) Action.settle w w' :=
    .of_ends (.ok (hR.settle h) rfl)
  refine .bind hsettle fun _ u u' hu => .look ?_
  rw [hR.module hu]
  exact .ite (hR.holding _ hu fun hv => hE (.readExport ..) hv) (.fail _ hu)

end Agreement

end EcmaCore
