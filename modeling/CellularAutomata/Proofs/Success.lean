/-!
# Success

When computations that can fail have a result. What is read from a text or a description
is read part by part, and each part can fail; these facts take such a computation apart
where it is known to have succeeded.
-/

namespace CellularAutomata

variable {ε ε' α β : Type}

/-- What has gone wrong, if anything has. -/
def faultOf? : Except ε α → Option ε
  | .error fault => some fault
  | .ok _ => none

/-- Nothing has gone wrong if there is a result. -/
theorem faultOf?_eq_none_iff {x : Except ε α} : faultOf? x = none ↔ ∃ a, x = .ok a := by
  cases x <;> simp [faultOf?]

/-- What has gone wrong is the fault that is reported. -/
theorem faultOf?_eq_some_iff {x : Except ε α} {fault : ε} :
    faultOf? x = some fault ↔ x = .error fault := by
  cases x <;> simp [faultOf?]

/-- A computation in two parts succeeds if both of them do. -/
theorem bind_eq_ok {x : Except ε α} {f : α → Except ε β} {b : β} :
    x >>= f = .ok b ↔ ∃ a, x = .ok a ∧ f a = .ok b := by
  cases x <;> simp [bind, Except.bind]

/-- A computation in two parts fails with its first part, or else with its second one. -/
theorem bind_eq_error {x : Except ε α} {f : α → Except ε β} {fault : ε} :
    x >>= f = .error fault ↔ x = .error fault ∨ ∃ a, x = .ok a ∧ f a = .error fault := by
  cases x <;> simp [bind, Except.bind]

/-- A check with something after it succeeds if both do. -/
theorem check_bind_eq_ok {x : Except ε Unit} {f : Unit → Except ε β} {b : β} :
    x >>= f = .ok b ↔ x = .ok () ∧ f () = .ok b := by
  cases x <;> simp [bind, Except.bind]

/-- Another error changes no success. -/
theorem mapError_eq_ok {x : Except ε α} {f : ε → ε'} {a : α} :
    x.mapError f = .ok a ↔ x = .ok a := by
  cases x with
  | error fault => exact ⟨nofun, nofun⟩
  | ok b => exact ⟨fun h => Except.ok.inj h ▸ rfl, fun h => Except.ok.inj h ▸ rfl⟩

/-- A failure under a condition is avoided if the condition is not met. -/
theorem ite_throw_eq_ok {P : Prop} [Decidable P] {fault : ε} :
    (if P then throw fault else pure () : Except ε Unit) = .ok () ↔ ¬ P := by
  by_cases h : P <;> simp [h, throw, throwThe, MonadExceptOf.throw, pure, Except.pure]

/-- A result that is changed by a function comes from a result. -/
theorem map_eq_ok {x : Except ε α} {f : α → β} {b : β} :
    x.map f = .ok b ↔ ∃ a, x = .ok a ∧ f a = b := by
  cases x <;> simp [Except.map]

/-- What has been evaluated of a result is that of a result. -/
theorem exists_of_map_toOption {x : Except ε α} {f : α → β} {b : β}
    (h : x.toOption.map f = some b) : ∃ a, x = .ok a ∧ f a = b := by
  cases x with
  | error fault => cases h
  | ok a => exact ⟨a, rfl, Option.some.inj h⟩

/-- A list is visited with success if each of its elements is. -/
theorem forM_eq_ok {f : α → Except ε Unit} {l : List α} :
    l.forM f = .ok () ↔ ∀ a ∈ l, f a = .ok () := by
  induction l with
  | nil => simp [pure, Except.pure]
  | cons a l ih => rw [List.forall_mem_cons, ← ih, List.forM, check_bind_eq_ok]

/-- A list is visited until the first fault, if what has been collected before an element does
not decide what goes wrong there. -/
theorem faultOf?_foldlM {visit : α → β → Except ε α} {check : β → Option ε}
    (h : ∀ a b, faultOf? (visit a b) = check b) (l : List β) (a : α) :
    faultOf? (l.foldlM visit a) = l.findSome? check := by
  induction l generalizing a with
  | nil => rfl
  | cons b l ih =>
    have hfirst := h a b
    rw [List.foldlM_cons, List.findSome?_cons, ← hfirst]
    cases visit a b with
    | error fault => rfl
    | ok next => exact ih next

/-- Two computations that go alike: both fail, or the second comes to what `φ` makes of the
result of the first. -/
inductive Alike (φ : α → β) : Except ε α → Except ε β → Prop where
  /-- Both succeed. -/
  | ok (a : α) : Alike φ (.ok a) (.ok (φ a))
  /-- Both fail, though perhaps for different reasons. -/
  | error (fault fault' : ε) : Alike φ (.error fault) (.error fault')

namespace Alike

variable {φ : α → β} {x : Except ε α} {y : Except ε β}

/-- Both succeed or neither does. -/
theorem succeeds_iff (h : Alike φ x y) : (∃ b, y = .ok b) ↔ ∃ a, x = .ok a := by
  cases h <;> simp

/-- The second result is made of the first. -/
theorem eq_of_ok (h : Alike φ x y) {a : α} {b : β} (ha : x = .ok a) (hb : y = .ok b) :
    b = φ a := by
  cases h with
  | ok a' =>
    obtain rfl := Except.ok.inj ha
    exact (Except.ok.inj hb).symm
  | error fault fault' => cases ha

/-- Computations that go alike may be continued by such ones. -/
theorem bind {α' β' : Type} {ψ : α' → β'} {f : α → Except ε α'} {g : β → Except ε β'}
    (h : Alike φ x y) (hnext : ∀ a, x = .ok a → Alike ψ (f a) (g (φ a))) :
    Alike ψ (x >>= f) (y >>= g) := by
  cases h with
  | ok a => exact hnext a rfl
  | error fault fault' => exact .error fault fault'

/-- Lists are visited alike if their elements are. -/
theorem foldlM {γ : Type} {visit : α → γ → Except ε α} {visit' : β → γ → Except ε β}
    (h : ∀ a c, Alike φ (visit a c) (visit' (φ a) c)) (l : List γ) (a : α) :
    Alike φ (l.foldlM visit a) (l.foldlM visit' (φ a)) := by
  induction l generalizing a with
  | nil => exact .ok a
  | cons c l ih =>
    rw [List.foldlM_cons, List.foldlM_cons]
    exact (h a c).bind fun next _ => ih next

end Alike

end CellularAutomata
