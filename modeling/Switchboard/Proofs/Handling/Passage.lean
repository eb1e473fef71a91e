import Switchboard.Handling.Stock

set_option autoImplicit false

/-! # The way through middlewares

Most middlewares have a part on the way in, which lets the request through as it leaves it or
answers itself, and a part on the way out, which sees the reply (`Stage`). What a handler does
inside a list of them is the way in as far as the request comes, the handler if it arrives, and the
way out through those that it has passed, the innermost first (`Handler.compose_stages`).
-/

namespace Switchboard

namespace Action

variable {α β γ : Type}

/-! ## Laws of actions -/

theorem bind_done (act : Action α) : act.bind .done = act := by
  induction act with
  | done value => rfl
  | note line next ih => rw [bind, ih]
  | inspect path next ih => simp only [bind, ih]
  | list path next ih => simp only [bind, ih]
  | handOver ctx next ih => simp only [bind, ih]

theorem bind_bind (act : Action α) (f : α → Action β) (g : β → Action γ) :
    (act.bind f).bind g = act.bind fun a => (f a).bind g := by
  induction act with
  | done value => rfl
  | note line next ih => simp only [bind, ih]
  | inspect path next ih => simp only [bind, ih]
  | list path next ih => simp only [bind, ih]
  | handOver ctx next ih => simp only [bind, ih]

instance : LawfulMonad Action :=
  LawfulMonad.mk' Action (fun act => act.bind_done) (fun _ _ => rfl) bind_bind

/-- The second part of an action is run after the first, and its lines come after the others. -/
theorem run_bind (disk : Disk) (answer : Context → Option (Reply × List String)) (act : Action α)
    (f : α → Action β) :
    (act >>= f).run disk answer = (act.run disk answer).bind fun first =>
      ((f first.1).run disk answer).map fun second => (second.1, first.2 ++ second.2) := by
  show (act.bind f).run disk answer = _
  induction act with
  | done value => simp [bind, run]
  | note line next ih =>
      rw [bind, run, ih, run]
      cases next.run disk answer with
      | none => rfl
      | some first => simp [Function.comp_def]
  | inspect path next ih => exact ih _
  | list path next ih => exact ih _
  | handOver ctx next ih =>
      rw [bind, run, run]
      cases answer ctx with
      | none => rfl
      | some handed =>
          simp only [Option.bind_eq_bind, Option.bind_some, ih]
          cases (next handed.1).run disk answer with
          | none => rfl
          | some first =>
              simp only [Option.pure_def, Option.bind_some]
              cases (f first.1).run disk answer with
              | none => rfl
              | some second => simp

end Action

/-! ## Stages -/

/-- A middleware in two parts. -/
structure Stage where
  /-- On the way in: the request as the next handler is to see it, or a reply instead. -/
  enter : Context → Action (Except Reply Context)
  /-- On the way out: the reply to the request that came in. -/
  leave : Context → Reply → Action Reply := fun _ reply => pure reply

namespace Stage

def middleware (s : Stage) : Middleware where
  wrap next ctx := do
    match ← s.enter ctx with
    | .ok inner => s.leave ctx (← next inner)
    | .error reply => pure reply

end Stage

/-- How far a request has come. -/
structure Passage where
  /-- The request as it has arrived, or the reply of the stage that has kept it. -/
  arrival : Except Reply Context
  /-- The way of a reply out through the stages that the request has passed. -/
  unwind : Reply → Action Reply := pure

namespace Passage

/-- The way through stages, the first of which is the outermost. -/
def through : List Stage → Context → Action Passage
  | [], ctx => pure { arrival := .ok ctx }
  | s :: rest, ctx => do
    match ← s.enter ctx with
    | .ok inner =>
      let p ← through rest inner
      pure { p with unwind := fun reply => p.unwind reply >>= s.leave ctx }
    | .error reply => pure { arrival := .error reply }

/-- The reply that the way in ends with: that of the handler, if the request has arrived. -/
def inside (h : Handler) (p : Passage) : Action Reply :=
  match p.arrival with
  | .ok inner => h inner
  | .error reply => pure reply

end Passage

/-- The request passes in, the handler replies if the request has arrived, and the reply passes
out. -/
theorem Handler.compose_stages (h : Handler) (stages : List Stage) (ctx : Context) :
    h.compose (stages.map Stage.middleware) ctx =
      Passage.through stages ctx >>= fun p => p.inside h >>= p.unwind := by
  induction stages generalizing ctx with
  | nil =>
      show h ctx = h ctx >>= pure
      rw [bind_pure]
  | cons s rest ih =>
      rw [Passage.through, bind_assoc]
      show (s.enter ctx >>= _) = _
      refine bind_congr fun arrival => ?_
      cases arrival with
      | error reply => rfl
      | ok inner =>
          show h.compose (rest.map Stage.middleware) inner >>= s.leave ctx = _
          rw [ih]
          simp only [bind_assoc, pure_bind]
          rfl

/-- Handlers that are put around others are all that a list of middlewares consists of. -/
theorem Handler.compose_congr (h : Handler) {ms ns : List Middleware}
    (hwrap : ms.map (·.wrap) = ns.map (·.wrap)) : h.compose ms = h.compose ns := by
  have hfold : ∀ l : List Middleware,
      h.compose l = (l.map (·.wrap)).foldr (fun wrap inner => wrap inner) h := by
    intro l
    rw [compose, List.foldr_map]
  rw [hfold, hfold, hwrap]

/-! ## Middlewares in stock -/

namespace Middleware

/-- The middleware has two parts. -/
def IsStaged (m : Middleware) : Prop := ∃ s : Stage, m.wrap = s.middleware.wrap

/-- Middlewares with two parts each are stages, one after another. -/
theorem exists_stages {ms : List Middleware} (h : ∀ m ∈ ms, m.IsStaged) :
    ∃ stages : List Stage, ms.map (·.wrap) = stages.map (·.middleware.wrap) := by
  induction ms with
  | nil => exact ⟨[], rfl⟩
  | cons m ms ih =>
      obtain ⟨⟨s, hs⟩, hrest⟩ := List.forall_mem_cons.1 h
      obtain ⟨stages, hstages⟩ := ih hrest
      refine ⟨s :: stages, ?_⟩
      rw [List.map_cons, hs, hstages, List.map_cons]

/-- A middleware that only does something on the way in. -/
theorem isStaged_of_enter {m : Middleware} (enter : Context → Action (Except Reply Context))
    (h : ∀ next ctx, m.wrap next ctx = enter ctx >>= fun arrival =>
      match arrival with
      | .ok inner => next inner
      | .error reply => pure reply) : m.IsStaged := by
  refine ⟨{ enter }, ?_⟩
  funext next ctx
  rw [h]
  refine bind_congr fun arrival => ?_
  cases arrival with
  | error reply => rfl
  | ok inner => exact (bind_pure _).symm

/-- A middleware that only does something on the way out. -/
theorem isStaged_of_leave {m : Middleware}
    (h : ∀ next ctx, m.wrap next ctx =
      next ctx >>= fun reply => m.wrap (Handler.const reply) ctx) : m.IsStaged := by
  refine ⟨{ enter := fun ctx => pure (.ok ctx)
            leave := fun ctx reply => m.wrap (Handler.const reply) ctx }, ?_⟩
  funext next ctx
  exact h next ctx

theorem isStaged_recover : recover.IsStaged := isStaged_of_leave fun _ _ => rfl

/-- The line that a tag notes on the way out. -/
def tagLine (name : String) : Reply → String
  | .ok response => s!"{name}<{response.status.code}"
  | .error f => s!"{name}!{f.text}"

theorem isStaged_tag (name : String) : (tag name).IsStaged := by
  refine ⟨{ enter := fun ctx => .note (name ++ ">") (pure (.ok ctx))
            leave := fun _ reply => .note (tagLine name reply) (pure reply) }, ?_⟩
  funext next ctx
  refine congrArg (Action.note (name ++ ">")) (bind_congr fun reply => ?_)
  cases reply <;> rfl

theorem isStaged_see (name : String) : (see name).IsStaged := by
  refine isStaged_of_enter (fun ctx =>
    let params := ctx.params.map fun p => s!"{p.1}={p.2}"
    .note (s!"{name}:{ctx.request.method.name} {ctx.path} [" ++ ",".intercalate params ++ "]")
      (pure (.ok ctx))) ?_
  intro next ctx
  rfl

theorem isStaged_replaceBy (h : Handler) : (replaceBy h).IsStaged := by
  refine isStaged_of_enter (fun ctx => h ctx >>= fun reply => pure (.error reply)) ?_
  intro next ctx
  simp [replaceBy]

theorem isStaged_change (edit : Request → Except Failure Request) : (change edit).IsStaged := by
  refine isStaged_of_enter (fun ctx =>
    pure (((edit ctx.request).map fun request => { ctx with request }).mapError Except.error)) ?_
  intro next ctx
  simp only [change, pure_bind]
  cases edit ctx.request <;> rfl

end Middleware

end Switchboard
