import Mathlib.Data.List.Forall2
import SchemaQuery.Constraint.Source

/-! What a step does: its result and the state after it.  The outcome of a composed step is told by
the outcomes of its parts; a failure keeps the state in which it happens. -/

namespace SchemaQuery

variable {σ α β : Type}

/-- The result of a step, and the state after it. -/
def outcome (action : Action σ α) (state : σ) : Except Error α × σ := action.run.run state

@[simp] theorem outcome_pure (a : α) (state : σ) :
    outcome (pure a : Action σ α) state = (.ok a, state) := rfl

@[simp] theorem outcome_throw (e : Error) (state : σ) :
    outcome (throw e : Action σ α) state = (.error e, state) := rfl

@[simp] theorem outcome_get (state : σ) : outcome (get : Action σ σ) state = (.ok state, state) :=
  rfl

@[simp] theorem outcome_set (new state : σ) :
    outcome (set new : Action σ Unit) state = (.ok (), new) := rfl

@[simp] theorem outcome_modify (f : σ → σ) (state : σ) :
    outcome (modify f : Action σ Unit) state = (.ok (), f state) := rfl

@[simp] theorem outcome_lift (result : Except Error α) (state : σ) :
    outcome (liftM result : Action σ α) state = (result, state) := by
  cases result <;> rfl

theorem outcome_liftState (action : StateM σ α) (state : σ) :
    outcome (liftM action : Action σ α) state = (.ok (action.run state).1, (action.run state).2) :=
  rfl

theorem outcome_bind (action : Action σ α) (next : α → Action σ β) (state : σ) :
    outcome (action >>= next) state = match outcome action state with
      | (.ok a, after) => outcome (next a) after
      | (.error e, after) => (.error e, after) := by
  unfold outcome ExceptT.run StateT.run
  simp only [bind, ExceptT.bind, ExceptT.mk, StateT.bind, ExceptT.bindCont]
  cases action state with
  | mk result after => cases result <;> rfl

theorem outcome_map (f : α → β) (action : Action σ α) (state : σ) :
    outcome (f <$> action) state = ((outcome action state).1.map f, (outcome action state).2) := by
  rw [← bind_pure_comp, outcome_bind]
  cases outcome action state with
  | mk result after => cases result <;> rfl

theorem outcome_bind_of_ok {x : Action σ α} {f : α → Action σ β} {state after : σ} {a : α}
    (h : outcome x state = (.ok a, after)) : outcome (x >>= f) state = outcome (f a) after := by
  rw [outcome_bind, h]

theorem outcome_bind_of_error {x : Action σ α} {f : α → Action σ β} {state after : σ} {e : Error}
    (h : outcome x state = (.error e, after)) : outcome (x >>= f) state = (.error e, after) := by
  rw [outcome_bind, h]

/-- A composed step that succeeds does so in both of its parts. -/
theorem exists_outcome_of_bind {x : Action σ α} {f : α → Action σ β} {state after : σ} {b : β}
    (h : outcome (x >>= f) state = (.ok b, after)) :
    ∃ a middle, outcome x state = (.ok a, middle) ∧ outcome (f a) middle = (.ok b, after) := by
  rw [outcome_bind] at h
  cases hx : outcome x state with
  | mk result middle =>
    rw [hx] at h
    cases result with
    | ok a => exact ⟨a, middle, rfl, h⟩
    | error e => cases h

theorem outcome_tryCatch (action : Action σ α) (handle : Error → Action σ α) (state : σ) :
    outcome (tryCatch action handle) state = match outcome action state with
      | (.ok a, after) => (.ok a, after)
      | (.error e, after) => outcome (handle e) after := by
  change outcome (ExceptT.tryCatch action handle) state = _
  unfold outcome ExceptT.run StateT.run
  simp only [ExceptT.tryCatch, ExceptT.mk, bind, StateT.bind]
  cases action state with
  | mk result after => cases result <;> rfl

/-- Steps that do the same are the same. -/
theorem eq_of_outcome_eq {x y : Action σ α} (h : ∀ state, outcome x state = outcome y state) :
    x = y :=
  funext h

/-! ### What a step keeps -/

/-- Whether a step keeps a property of the state, gives only values of one kind, and fails only with
errors of another. -/
def Keeps (inv : σ → Prop) (gives : α → Prop) (fails : Error → Prop) (action : Action σ α) : Prop :=
  ∀ state, inv state → inv (outcome action state).2 ∧
    match (outcome action state).1 with
    | .ok a => gives a
    | .error e => fails e

variable {inv : σ → Prop} {gives : α → Prop} {gives' : β → Prop} {fails fails' : Error → Prop}
  {x : Action σ α}

theorem Keeps.state {state after : σ} {result : Except Error α} (hx : Keeps inv gives fails x)
    (h : outcome x state = (result, after)) (hs : inv state) : inv after := by
  have hstate := (hx state hs).1
  rwa [h] at hstate

theorem keeps_pure {a : α} (h : gives a) : Keeps inv gives fails (pure a : Action σ α) :=
  fun _ hs => ⟨hs, h⟩

theorem keeps_throw {e : Error} (h : fails e) : Keeps inv gives fails (throw e : Action σ α) :=
  fun _ hs => ⟨hs, h⟩

theorem keeps_get : Keeps inv inv fails (get : Action σ σ) := fun _ hs => ⟨hs, hs⟩

theorem keeps_modify {f : σ → σ} (h : ∀ state, inv state → inv (f state)) :
    Keeps inv (fun _ => True) fails (modify f : Action σ Unit) :=
  fun state hs => ⟨h state hs, trivial⟩

theorem keeps_lift {result : Except Error α} (hok : ∀ a, result = .ok a → gives a)
    (herror : ∀ e, result = .error e → fails e) :
    Keeps inv gives fails (liftM result : Action σ α) := by
  intro state hs
  rw [outcome_lift]
  cases result with
  | ok a => exact ⟨hs, hok a rfl⟩
  | error e => exact ⟨hs, herror e rfl⟩

theorem Keeps.bind {f : α → Action σ β} (hx : Keeps inv gives fails x)
    (hf : ∀ a, gives a → Keeps inv gives' fails (f a)) : Keeps inv gives' fails (x >>= f) := by
  intro state hs
  have hfirst := hx state hs
  rw [outcome_bind]
  cases hout : outcome x state with
  | mk result after =>
    rw [hout] at hfirst
    cases result with
    | ok a => exact hf a hfirst.2 after hfirst.1
    | error e => exact hfirst

theorem Keeps.tryCatch {handle : Error → Action σ α} (hx : Keeps inv gives fails' x)
    (hhandle : ∀ e, fails' e → Keeps inv gives fails (handle e)) :
    Keeps inv gives fails (tryCatch x handle) := by
  intro state hs
  have hfirst := hx state hs
  rw [outcome_tryCatch]
  cases hout : outcome x state with
  | mk result after =>
    rw [hout] at hfirst
    cases result with
    | ok a => exact hfirst
    | error e => exact hhandle e hfirst.2 after hfirst.1

theorem Keeps.mapM {relation : α → β → Prop} {f : α → Action σ β} {items : List α}
    (h : ∀ a ∈ items, Keeps inv (relation a) fails (f a)) :
    Keeps inv (List.Forall₂ relation items) fails (items.mapM f) := by
  induction items with
  | nil => exact keeps_pure .nil
  | cons a rest ih =>
    rw [List.mapM_cons]
    refine (h a List.mem_cons_self).bind fun b hb => ?_
    refine (ih fun a ha => h a (List.mem_cons_of_mem _ ha)).bind fun bs hbs => ?_
    exact keeps_pure (.cons hb hbs)

theorem Keeps.forM {f : α → Action σ Unit} {items : List α}
    (h : ∀ a ∈ items, Keeps inv (fun _ => True) fails (f a)) :
    Keeps inv (fun _ => True) fails (items.forM f) := by
  induction items with
  | nil => exact keeps_pure trivial
  | cons a rest ih =>
    refine (h a List.mem_cons_self).bind fun _ _ => ?_
    exact ih fun a ha => h a (List.mem_cons_of_mem _ ha)

/-! ### Steps for the items of a list -/

/-- Whether a step for an item leads from states with its `pre` to related ones, with its `post`
when it succeeds; other related states keep both. -/
structure Settles (related : σ → σ → Prop) (pre post : α → σ → Prop) (f : α → Action σ Unit) :
    Prop where
  refl : ∀ state, related state state
  trans : ∀ {state middle after}, related state middle → related middle after → related state after
  keepsPre : ∀ {a state after}, related state after → pre a state → pre a after
  keepsPost : ∀ {a state after}, related state after → pre a state → post a state → post a after
  step : ∀ a state, pre a state → related state (outcome (f a) state).2 ∧
    ((outcome (f a) state).1 = .ok () → post a (outcome (f a) state).2)

/-- What the steps have found out one by one holds after all of them. -/
theorem Settles.forM {related : σ → σ → Prop} {pre post : α → σ → Prop} {f : α → Action σ Unit}
    (hf : Settles related pre post f) {items : List α} {state : σ} (h : ∀ a ∈ items, pre a state) :
    related state (outcome (items.forM f) state).2 ∧
      ((outcome (items.forM f) state).1 = .ok () →
        ∀ a ∈ items, post a (outcome (items.forM f) state).2) := by
  induction items generalizing state with
  | nil => exact ⟨hf.refl state, fun _ => nofun⟩
  | cons a rest ih =>
    obtain ⟨ha, hrest⟩ := List.forall_mem_cons.mp h
    obtain ⟨hrelated, hpost⟩ := hf.step a state ha
    have hcons : (a :: rest).forM f = f a >>= fun _ => rest.forM f := rfl
    rw [hcons, outcome_bind]
    cases hfirst : outcome (f a) state with
    | mk result middle =>
      rw [hfirst] at hrelated hpost
      cases result with
      | error e => exact ⟨hrelated, nofun⟩
      | ok _ =>
        obtain ⟨hlater, hposts⟩ := ih fun b hb => hf.keepsPre hrelated (hrest b hb)
        refine ⟨hf.trans hrelated hlater, fun hok => List.forall_mem_cons.mpr ⟨?_, hposts hok⟩⟩
        exact hf.keepsPost hlater (hf.keepsPre hrelated ha) (hpost rfl)

theorem outcome_forM_of_ok {f : α → Action σ Unit} {items : List α} {state : σ}
    (h : ∀ a ∈ items, outcome (f a) state = (.ok (), state)) :
    outcome (items.forM f) state = (.ok (), state) := by
  induction items with
  | nil => rfl
  | cons a rest ih =>
    obtain ⟨ha, hrest⟩ := List.forall_mem_cons.mp h
    exact (outcome_bind_of_ok ha).trans (ih hrest)

end SchemaQuery
