/-!
# Results of steps that may fail

What a computation of several steps says about each of them if it succeeds, and computations that
succeed and fail together (`Alike`).
-/

namespace Mdx

theorem exists_ok_of_bind {ε α β : Type} {x : Except ε α} {f : α → Except ε β} {b : β}
    (h : x >>= f = .ok b) : ∃ a, x = .ok a ∧ f a = .ok b := by
  cases x with
  | error e => cases h
  | ok a => exact ⟨a, rfl, h⟩

/-- A computation that fails fails in its first step or, after that, in the second. -/
theorem error_or_of_bind {ε α β : Type} {x : Except ε α} {f : α → Except ε β} {e : ε}
    (h : x >>= f = .error e) : x = .error e ∨ ∃ a, x = .ok a ∧ f a = .error e := by
  cases x with
  | error e' => exact .inl (congrArg Except.error (Except.error.inj h))
  | ok a => exact .inr ⟨a, rfl, h⟩

theorem exists_ok_of_map {ε α β : Type} {x : Except ε α} {f : α → β} {b : β}
    (h : x.map f = .ok b) : ∃ a, x = .ok a ∧ f a = b := by
  cases x with
  | error e => cases h
  | ok a => exact ⟨a, rfl, Except.ok.inj h⟩

theorem error_of_map {ε α β : Type} {x : Except ε α} {g : α → β} {e : ε} (h : x.map g = .error e) :
    x = .error e := by
  cases x with
  | error e' => exact congrArg Except.error (Except.error.inj h)
  | ok a => cases h

theorem eq_ok_of_toOption {ε α : Type} {x : Except ε α} {a : α} (h : x.toOption = some a) :
    x = .ok a := by
  cases x with
  | error e => cases h
  | ok b => rw [Option.some.inj h]

theorem toOption_eq_some_iff {ε α : Type} {x : Except ε α} {a : α} :
    x.toOption = some a ↔ x = .ok a :=
  ⟨eq_ok_of_toOption, fun h => h ▸ rfl⟩

theorem isOk_map {ε α β : Type} (x : Except ε α) (f : α → β) : (x.map f).isOk = x.isOk := by
  cases x <;> rfl

theorem isOk_iff {ε α : Type} {x : Except ε α} : x.isOk = true ↔ ∃ a, x = .ok a := by
  cases x with
  | error e => exact ⟨fun h => (by cases h), fun ⟨_, h⟩ => (by cases h)⟩
  | ok a => exact ⟨fun _ => ⟨a, rfl⟩, fun _ => rfl⟩

/-! ### Computations that fail together -/

/-- The two computations both succeed, with results that are related, or both fail. -/
def Alike {ε δ α β : Type} (R : α → β → Prop) (x : Except ε α) (y : Except δ β) : Prop :=
  (∃ (a : α) (b : β), x = .ok a ∧ y = .ok b ∧ R a b) ∨ ∃ (e : ε) (d : δ), x = .error e ∧ y = .error d

namespace Alike

variable {ε δ α β γ κ : Type} {R : α → β → Prop} {S : γ → κ → Prop}

theorem ok {a : α} {b : β} (h : R a b) : Alike R (.ok a : Except ε α) (.ok b : Except δ β) :=
  .inl ⟨a, b, rfl, rfl, h⟩

theorem error {e : ε} {d : δ} : Alike R (.error e) (.error d) :=
  .inr ⟨e, d, rfl, rfl⟩

theorem refl {T : α → α → Prop} (x : Except ε α) (h : ∀ a, T a a) : Alike T x x := by
  cases x with
  | error e => exact error
  | ok a => exact ok (h a)

theorem bind {x : Except ε α} {y : Except δ β} {f : α → Except ε γ} {g : β → Except δ κ}
    (h : Alike R x y) (hfg : ∀ a b, R a b → Alike S (f a) (g b)) : Alike S (x >>= f) (y >>= g) := by
  rcases h with ⟨a, b, rfl, rfl, hab⟩ | ⟨e, d, rfl, rfl⟩
  · exact hfg a b hab
  · exact error

theorem map {x : Except ε α} {y : Except δ β} {f : α → γ} {g : β → κ} (h : Alike R x y)
    (hfg : ∀ a b, R a b → S (f a) (g b)) : Alike S (x.map f) (y.map g) := by
  rcases h with ⟨a, b, rfl, rfl, hab⟩ | ⟨e, d, rfl, rfl⟩
  · exact ok (hfg a b hab)
  · exact error

theorem mono {T : α → β → Prop} {x : Except ε α} {y : Except δ β} (h : Alike R x y)
    (hT : ∀ a b, R a b → T a b) : Alike T x y := by
  rcases h with ⟨a, b, rfl, rfl, hab⟩ | ⟨e, d, rfl, rfl⟩
  · exact ok (hT a b hab)
  · exact error

theorem attach {x : Except ε α} {y : Except δ β} (h : Alike R x y) :
    Alike (fun a b => x = .ok a ∧ y = .ok b ∧ R a b) x y := by
  rcases h with ⟨a, b, rfl, rfl, hab⟩ | ⟨e, d, rfl, rfl⟩
  · exact ok ⟨rfl, rfl, hab⟩
  · exact error

/-- Computations that are alike show the same to whoever does not tell their results apart. -/
theorem map_toOption_eq {x : Except ε α} {y : Except δ β} {f : α → γ} {g : β → γ} (h : Alike R x y)
    (hfg : ∀ a b, R a b → f a = g b) : x.toOption.map f = y.toOption.map g := by
  rcases h with ⟨a, b, rfl, rfl, hab⟩ | ⟨e, d, rfl, rfl⟩
  · exact congrArg some (hfg a b hab)
  · rfl

end Alike

end Mdx
