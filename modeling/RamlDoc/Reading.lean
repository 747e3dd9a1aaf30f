import RamlDoc.Event

/-!
# Readings

A reading is the outcome of reading something: the events noted on the way, in order, and the value
or the error that ended it. Readings form a monad; taking the result of a reading is a morphism from
it to plain exceptions (`Reading.result_bind`), so what a reader accepts and yields can be studied
without its events.
-/

namespace RamlDoc

/-- The outcome of reading a value. -/
structure Reading (α : Type) where
  events : List Event
  result : Except Error α

namespace Reading

variable {α β : Type}

/-- A reading that only has a result. -/
def lift (result : Except Error α) : Reading α := ⟨[], result⟩

/-- A reading that fails. -/
def fail (error : Error) : Reading α := ⟨[], .error error⟩

/-- A reading that notes an event. -/
def note (event : Event) : Reading Unit := ⟨[event], .ok ()⟩

/-- One reading after another. -/
def andThen (first : Reading α) (next : α → Reading β) : Reading β :=
  match first.result with
  | .error error => ⟨first.events, .error error⟩
  | .ok value => ⟨first.events ++ (next value).events, (next value).result⟩

instance : Monad Reading where
  pure value := ⟨[], .ok value⟩
  bind := andThen

instance : MonadLift (Except Error) Reading where
  monadLift := lift

/-- The reading with its error, if any, changed. -/
def mapError (change : Error → Error) (reading : Reading α) : Reading α :=
  ⟨reading.events, reading.result.mapError change⟩

@[simp] theorem result_pure (value : α) : (pure value : Reading α).result = .ok value := rfl

@[simp] theorem result_lift (result : Except Error α) : (lift result).result = result := rfl

@[simp] theorem result_fail (error : Error) : (fail error : Reading α).result = .error error := rfl

@[simp] theorem result_note (event : Event) : (note event).result = .ok () := rfl

@[simp] theorem result_mapError (change : Error → Error) (reading : Reading α) :
    (reading.mapError change).result = reading.result.mapError change := rfl

/-- The result of one reading after another is that of the results. -/
@[simp] theorem result_bind (first : Reading α) (next : α → Reading β) :
    (first >>= next).result = first.result >>= fun value => (next value).result := by
  show (andThen first next).result = _
  unfold andThen
  cases first.result <;> rfl

@[simp] theorem result_map (f : α → β) (reading : Reading α) :
    (f <$> reading).result = f <$> reading.result := by
  show (andThen reading fun value => pure (f value)).result = _
  unfold andThen
  cases reading.result <;> rfl

@[simp] theorem result_monadLift (result : Except Error α) :
    (liftM result : Reading α).result = result := rfl

/-- The result of reading each element of a list in turn. -/
@[simp] theorem result_mapM (read : α → Reading β) (items : List α) :
    (items.mapM read).result = items.mapM fun item => (read item).result := by
  suffices h : ∀ done, (List.mapM.loop read items done).result =
      List.mapM.loop (fun item => (read item).result) items done from h []
  induction items with
  | nil => intro done; rfl
  | cons item items ih =>
    intro done
    simp only [List.mapM.loop, result_bind]
    congr 1
    funext value
    exact ih _

theorem ok_bind (value : α) (next : α → Reading β) :
    (liftM (.ok value : Except Error α) : Reading α) >>= next = next value := rfl

theorem error_bind (error : Error) (next : α → Reading β) :
    (liftM (.error error : Except Error α) : Reading α) >>= next = Reading.fail error := rfl

theorem andThen_assoc {γ : Type} (first : Reading α) (second : α → Reading β)
    (third : β → Reading γ) :
    (first.andThen second).andThen third =
      first.andThen fun value => (second value).andThen third := by
  obtain ⟨events, result⟩ := first
  cases result with
  | error error => rfl
  | ok value =>
    simp only [andThen]
    cases (second value).result with
    | error error => rfl
    | ok value => simp only [List.append_assoc]

instance : LawfulMonad Reading :=
  LawfulMonad.mk' Reading
    (fun reading => by
      show reading.andThen (fun value => pure value) = reading
      obtain ⟨events, result⟩ := reading
      cases result <;> simp [andThen, pure])
    (fun value next => by
      show (pure value : Reading _).andThen next = next value
      simp [andThen, pure])
    andThen_assoc

end Reading

end RamlDoc
