import EcmaCore.Engine.Basic

/-!
# Running actions

How an action that is put together from others runs: one equation for each way
of putting actions together, at a world. A proof that follows a run rewrites
with these and never unfolds the monad.
-/

namespace EcmaCore.Action

variable {σ α β : Type} {w w' : World σ}

@[simp] theorem pure_apply (a : α) (w : World σ) : (pure a : Action σ α) w = .ok a w :=
  rfl

@[simp] theorem fail_apply (e : Error) (w : World σ) :
    (fail e : Action σ α) w = .error (.thrown e) w :=
  rfl

@[simp] theorem get_apply (w : World σ) : (get : Action σ (World σ)) w = .ok w w :=
  rfl

@[simp] theorem set_apply (w w' : World σ) : (set w' : Action σ PUnit) w = .ok ⟨⟩ w' :=
  rfl

@[simp] theorem modify_apply (f : World σ → World σ) (w : World σ) :
    (modify f : Action σ PUnit) w = .ok ⟨⟩ (f w) :=
  rfl

@[simp] theorem read_apply (f : World σ → α) (w : World σ) : read f w = .ok (f w) w :=
  rfl

@[simp] theorem change_apply (f : World σ → α × World σ) (w : World σ) :
    change f w = .ok (f w).1 (f w).2 :=
  rfl

@[simp] theorem ofExcept_ok (a : α) (w : World σ) : (ofExcept (.ok a) : Action σ α) w = .ok a w :=
  rfl

@[simp] theorem ofExcept_error (e : Error) (w : World σ) :
    (ofExcept (.error e) : Action σ α) w = .error (.thrown e) w :=
  rfl

theorem attempt_ok {f : World σ → Except Error (α × World σ)} {a : α}
    (h : f w = .ok (a, w')) : attempt f w = .ok a w' := by
  rw [attempt, h]

theorem attempt_error {f : World σ → Except Error (α × World σ)} {e : Error}
    (h : f w = .error e) : attempt f w = .error (.thrown e) w := by
  rw [attempt, h]

theorem attempt_eq_ok {f : World σ → Except Error (α × World σ)} {a : α} :
    attempt f w = .ok a w' ↔ f w = .ok (a, w') := by
  constructor
  · intro h
    cases hf : f w with
    | ok result =>
        rw [attempt_ok hf] at h
        cases h
        rfl
    | error e =>
        rw [attempt_error hf] at h
        cases h
  · exact attempt_ok

theorem bind_ok {act : Action σ α} {next : α → Action σ β} {a : α} (h : act w = .ok a w') :
    (act >>= next) w = next a w' := by
  show EStateM.bind act next w = _
  rw [EStateM.bind, h]

theorem bind_error {act : Action σ α} {next : α → Action σ β} {e : Failure}
    (h : act w = .error e w') : (act >>= next) w = .error e w' := by
  show EStateM.bind act next w = _
  rw [EStateM.bind, h]

theorem bind_congr {act act' : Action σ α} {next : α → Action σ β} (h : act w = act' w) :
    (act >>= next) w = (act' >>= next) w := by
  show EStateM.bind act next w = EStateM.bind act' next w
  rw [EStateM.bind, EStateM.bind, h]

theorem bind_congr_next {act : Action σ α} {next next' : α → Action σ β}
    (h : ∀ a, next a = next' a) : act >>= next = act >>= next' := by
  rw [funext h]

theorem andFinally_congr {act act' : Action σ α} {cleanUp : World σ → World σ}
    (h : act w = act' w) : act.andFinally cleanUp w = act'.andFinally cleanUp w := by
  rw [andFinally, andFinally, h]

/-- An action ends with an error of a kind and changes nothing. -/
def Throws (act : Action σ α) (kind : ErrorKind) (w : World σ) : Prop :=
  ∃ e : Error, e.kind = kind ∧ act w = .error (.thrown e) w

/-- How an action ends that gives an answer and leaves a world. -/
def ending (answer : Except Failure α) (w : World σ) : EStateM.Result Failure (World σ) α :=
  match answer with
  | .ok a => .ok a w
  | .error e => .error e w

theorem ofExcept_apply (answer : Except Error α) (w : World σ) :
    (ofExcept answer : Action σ α) w = ending (answer.mapError .thrown) w := by
  cases answer <;> rfl

/-- A sequence of two actions ends well only if both do. -/
theorem bind_eq_ok {act : Action σ α} {next : α → Action σ β} {b : β} {w'' : World σ} :
    (act >>= next) w = .ok b w'' ↔ ∃ a w', act w = .ok a w' ∧ next a w' = .ok b w'' := by
  cases h : act w with
  | ok a w' =>
      rw [bind_ok h]
      constructor
      · intro hnext
        exact ⟨a, w', rfl, hnext⟩
      · rintro ⟨_, _, hrun, hnext⟩
        cases hrun
        exact hnext
  | error e w' =>
      rw [bind_error h]
      constructor
      · intro hrun
        cases hrun
      · rintro ⟨_, _, hrun, _⟩
        cases hrun

/-- An action that holds on to entities runs with them held, and lets go of them at the end. -/
theorem holding_apply (entities : List Entity) (act : Action σ α) (w : World σ) :
    act.holding entities w =
      match act { w with held := entities ++ w.held } with
      | .ok a w' => .ok a { w' with held := w.held }
      | .error e w' => .error e { w' with held := w.held } :=
  rfl

/-- What holds on to entities ends well only if it does so inside. -/
theorem holding_eq_ok {entities : List Entity} {act : Action σ α} {a : α}
    (h : act.holding entities w = .ok a w') :
    ∃ u, act { w with held := entities ++ w.held } = .ok a u ∧ w' = { u with held := w.held } := by
  rw [holding_apply] at h
  split at h
  · next a' u hrun =>
    cases h
    exact ⟨u, hrun, rfl⟩
  · cases h

theorem holding_congr {entities : List Entity} {act act' : Action σ α}
    (h : act { w with held := entities ++ w.held } = act' { w with held := entities ++ w.held }) :
    act.holding entities w = act'.holding entities w := by
  rw [holding_apply, holding_apply, h]

/-- What is held on to inside adds to what is held on to outside. -/
theorem holding_holding (inner outer : List Entity) (act : Action σ α) :
    (act.holding inner).holding outer = act.holding (inner ++ outer) := by
  funext w
  rw [holding_apply, holding_apply, holding_apply, List.append_assoc]
  cases act { w with held := inner ++ (outer ++ w.held) } <;> rfl

/-- Holding on to nothing makes no difference to an action that lets go of what it held on to. -/
theorem holding_nil {act : Action σ α} {a : α} (h : act w = .ok a w') (hheld : w'.held = w.held) :
    act.holding [] w = .ok a w' := by
  have hrun : act { w with held := [] ++ w.held } = .ok a w' := h
  rw [holding_apply, hrun, ← hheld]

/-- What is held on to inside is let go of, however the action ends. -/
theorem holding_ending {entities : List Entity} {act : Action σ α} {answer : Except Failure α}
    (h : act { w with held := entities ++ w.held } = ending answer w') :
    act.holding entities w = ending answer { w' with held := w.held } := by
  rw [holding_apply, h]
  cases answer <;> rfl

/-- Holding on to entities makes no difference to an action that does nothing but answer. -/
theorem holding_ofExcept {entities : List Entity} {act : Action σ α} {outcome : Except Error α}
    (h : act { w with held := entities ++ w.held } =
      ofExcept outcome { w with held := entities ++ w.held }) :
    act.holding entities w = ofExcept outcome w := by
  rw [holding_apply, h]
  cases outcome <;> rfl

end EcmaCore.Action
