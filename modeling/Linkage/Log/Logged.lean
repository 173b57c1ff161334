import Linkage.Log.Event

namespace Linkage.Log

/-- A value together with what was logged on the way to it. -/
structure Logged (α : Type) where
  value : α
  events : List Event := []

namespace Logged

instance : Monad Logged where
  pure a := ⟨a, []⟩
  bind x f := ⟨(f x.value).value, x.events ++ (f x.value).events⟩

def emit (e : Event) : Logged Unit := ⟨(), [e]⟩

@[simp] theorem value_pure {α : Type} (a : α) : (pure a : Logged α).value = a := rfl

@[simp] theorem events_pure {α : Type} (a : α) : (pure a : Logged α).events = [] := rfl

@[simp] theorem value_bind {α β : Type} (x : Logged α) (f : α → Logged β) :
    (x >>= f).value = (f x.value).value := rfl

@[simp] theorem events_bind {α β : Type} (x : Logged α) (f : α → Logged β) :
    (x >>= f).events = x.events ++ (f x.value).events := rfl

@[simp] theorem value_map {α β : Type} (f : α → β) (x : Logged α) :
    (f <$> x).value = f x.value := rfl

@[simp] theorem events_map {α β : Type} (f : α → β) (x : Logged α) :
    (f <$> x).events = x.events := List.append_nil _

@[simp] theorem events_emit (e : Event) : (emit e).events = [e] := rfl

theorem value_foldlM {α β : Type} (f : β → α → Logged β) (b : β) (as : List α) :
    (as.foldlM f b).value = as.foldl (fun b a => (f b a).value) b := by
  induction as generalizing b with
  | nil => rfl
  | cons a as ih => rw [List.foldlM_cons, value_bind, ih, List.foldl_cons]

instance : LawfulMonad Logged := LawfulMonad.mk' Logged
  (by intros; simp [Functor.map])
  (by intros; rfl)
  (by intros; simp [Bind.bind])

end Logged

end Linkage.Log
