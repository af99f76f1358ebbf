import ScopedDocs.Proofs.Outcome
import ScopedDocs.Repository.Read
import ScopedDocs.Repository.Write
/-!
# Runs — what an operation answers and leaves behind

An operation on a store is seen through its answer (`StoreM.result`) and the store
afterwards (`StoreM.after`). The lemmas give both for the ways operations are put
together, so that later proofs never open the monad.
-/


namespace ScopedDocs

variable {α β : Type}

namespace StoreM

/-- The answer of an operation on a store. -/
def result (action : StoreM α) (s : Store) : Except Error α := (action.run.run s).1

/-- The store an operation leaves. -/
def after (action : StoreM α) (s : Store) : Store := (action.run.run s).2

@[simp] theorem result_pure (a : α) (s : Store) : (pure a : StoreM α).result s = .ok a := rfl

@[simp] theorem after_pure (a : α) (s : Store) : (pure a : StoreM α).after s = s := rfl

@[simp] theorem result_answer (e : Except Error α) (s : Store) :
    (Store.answer e).result s = e := rfl

@[simp] theorem after_answer (e : Except Error α) (s : Store) :
    (Store.answer e).after s = s := rfl

/-- A sequence answers as its second step does in the store the first one
leaves. -/
theorem result_bind (action : StoreM α) (next : α → StoreM β) (s : Store) :
    (action >>= next).result s =
      (action.result s >>= fun a => (next a).result (action.after s)) := by
  change ((ExceptT.bindCont next (action.run.run s).1) (action.run.run s).2).1 = _
  simp only [result, after]
  cases (action.run.run s).1 <;> rfl

/-- A sequence leaves what its second step leaves, if there is one. -/
theorem after_bind (action : StoreM α) (next : α → StoreM β) (s : Store) :
    (action >>= next).after s =
      match action.result s with
      | .ok a => (next a).after (action.after s)
      | .error _ => action.after s := by
  change ((ExceptT.bindCont next (action.run.run s).1) (action.run.run s).2).2 = _
  simp only [result, after]
  cases (action.run.run s).1 <;> rfl

/-- A sequence whose second step only answers leaves what its first step
leaves. -/
theorem after_bind_of_keeps {next : α → StoreM β} (h : ∀ a s, (next a).after s = s)
    (action : StoreM α) (s : Store) : (action >>= next).after s = action.after s := by
  rw [after_bind]
  cases action.result s with
  | ok a => exact h a _
  | error e => rfl

/-- Mapping an answer leaves the same store. -/
@[simp] theorem after_map (f : α → β) (action : StoreM α) (s : Store) :
    (f <$> action).after s = action.after s := by
  rw [map_eq_pure_bind]
  exact after_bind_of_keeps (fun _ _ => rfl) action s

/-- Mapping an answer maps nothing else. -/
@[simp] theorem result_map (f : α → β) (action : StoreM α) (s : Store) :
    (f <$> action).result s = (action.result s).map f := by
  rw [map_eq_pure_bind, result_bind]
  cases action.result s <;> rfl

/-- A handler takes over in the store that a refused operation leaves. -/
theorem run_tryCatch (action : StoreM α) (handler : Error → StoreM α) (s : Store) :
    (tryCatch action handler : StoreM α).run.run s =
      match action.run.run s with
      | (.ok a, s') => (.ok a, s')
      | (.error e, s') => (handler e).run.run s' := by
  -- the layers of the monad are opened here and nowhere else
  simp only [tryCatch, tryCatchThe, MonadExceptOf.tryCatch, ExceptT.tryCatch, ExceptT.run,
    StateT.run, ExceptT.mk, bind, StateT.bind]
  cases action s with
  | mk answer s' => cases answer <;> rfl

theorem result_tryCatch (action : StoreM α) (handler : Error → StoreM α) (s : Store) :
    (tryCatch action handler : StoreM α).result s =
      match action.result s with
      | .ok a => .ok a
      | .error e => (handler e).result (action.after s) := by
  simp only [result, after, run_tryCatch]
  rcases action.run.run s with ⟨e | a, s'⟩ <;> rfl

theorem after_tryCatch (action : StoreM α) (handler : Error → StoreM α) (s : Store) :
    (tryCatch action handler : StoreM α).after s =
      match action.result s with
      | .ok _ => action.after s
      | .error e => (handler e).after (action.after s) := by
  simp only [result, after, run_tryCatch]
  rcases action.run.run s with ⟨e | a, s'⟩ <;> rfl

/-- Steps in a row answer as the first one does, and then as the others do in the store it
leaves. -/
theorem result_forM_cons {ι : Type} (action : ι → StoreM Unit) (a : ι) (rest : List ι) (s : Store) :
    ((a :: rest).forM action).result s =
      ((action a).result s >>= fun _ => (rest.forM action).result ((action a).after s)) := by
  rw [List.forM_eq_forM, List.forM_cons, result_bind]

/-- Steps in a row leave what the first one leaves, if it is refused. -/
theorem after_forM_cons {ι : Type} (action : ι → StoreM Unit) (a : ι) (rest : List ι) (s : Store) :
    ((a :: rest).forM action).after s =
      match (action a).result s with
      | .ok _ => (rest.forM action).after ((action a).after s)
      | .error _ => (action a).after s := by
  rw [List.forM_eq_forM, List.forM_cons, after_bind]
  cases (action a).result s <;> rfl

/-- **What every step keeps, steps in a row keep**, whether they come to their end or not. -/
theorem after_forM {ι : Type} {P : Store → Prop} {items : List ι} {action : ι → StoreM Unit}
    {s : Store} (hstep : ∀ a ∈ items, ∀ s, P s → P ((action a).after s)) (h : P s) :
    P ((items.forM action).after s) := by
  induction items generalizing s with
  | nil => exact h
  | cons a rest ih =>
    obtain ⟨hfirst, hrest⟩ := List.forall_mem_cons.mp hstep
    rw [after_forM_cons]
    split
    · exact ih hrest (hfirst s h)
    · exact hfirst s h

end StoreM

/-! ## Calls of a repository -/

namespace Repository

variable (repo : Repository α) (r : Request)

/-- Whether a request is let through to the store, within the configured time. -/
def admission : Except Error Unit :=
  (match repo.config.queryTimeout with
    | some span => r.withTimeout span.length
    | none => r).check

/-- A call lets the request through and then acts. -/
theorem call_eq (action : StoreM β) :
    repo.call r action = (Store.answer (repo.admission r) >>= fun _ => action) := rfl

/-- A call answers what its action answers, if the request is let through. -/
theorem result_call (action : StoreM β) (s : Store) :
    (repo.call r action).result s = (repo.admission r >>= fun _ => action.result s) := by
  rw [call_eq, StoreM.result_bind]
  rfl

/-- A call leaves what its action leaves, if the request is let through. -/
theorem after_call (action : StoreM β) (s : Store) :
    (repo.call r action).after s =
      match repo.admission r with
      | .ok _ => action.after s
      | .error _ => s := by
  rw [call_eq, StoreM.after_bind]
  cases repo.admission r <;> rfl

/-- A reading call answers from the store it reads. -/
theorem result_query (read : Store → Except Error β) (s : Store) :
    (repo.query r read).result s = (repo.admission r >>= fun _ => read s) := by
  rw [query, result_call]
  rfl

/-- A reading call leaves the store as it is. -/
@[simp] theorem after_query (read : Store → Except Error β) (s : Store) :
    (repo.query r read).after s = s := by
  rw [query, after_call]
  cases repo.admission r <;> rfl

/-- Searching leaves the store as it is. -/
@[simp] theorem after_search (search : Search) (s : Store) :
    (repo.search r search).after s = s := by
  rw [Repository.search, StoreM.after_bind_of_keeps fun p t => ?_]
  · rfl
  · rw [StoreM.after_bind_of_keeps fun _ _ => rfl, after_query]

/-- Looking for the first document leaves the store as it is. -/
@[simp] theorem after_findFirst (condition : Json) (s : Store) :
    (repo.findFirst r condition).after s = s := by
  rw [findFirst, StoreM.after_bind_of_keeps fun _ _ => rfl, after_query]

end Repository

end ScopedDocs
