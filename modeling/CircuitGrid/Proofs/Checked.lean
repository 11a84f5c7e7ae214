import Mathlib.Data.List.Forall2

/-!
# Results that may be errors

Checkers and the lowering pass give a result or the first error. What a sequence of them gives is
read off its parts.

* `Except.bind_eq_ok`, `Except.mapM_eq_ok`, `Except.mapM_eq_map`: sequences that give a result;
* `Except.bind_eq_error`, `Except.mapM_eq_error`: sequences that fail, and with which error;
* `exists_left_of_mem`, `exists_right_of_mem`: what stands opposite an item;
* `Except.exists_of_mem_flatten`, `Except.exists_subset_flatten`: steps that give lists;
* `Except.map_append_congr`, `Except.map_mapM_congr`: sequences that give the same but for what a
  function forgets.
-/

namespace CircuitGrid

theorem exists_right_of_mem {α β : Type} {R : α → β → Prop} {as : List α} {bs : List β}
    (h : List.Forall₂ R as bs) {a : α} (inside : a ∈ as) : ∃ b ∈ bs, R a b := by
  obtain ⟨i, bound, rfl⟩ := List.mem_iff_getElem.mp inside
  have bound' : i < bs.length := h.length_eq ▸ bound
  exact ⟨bs[i], List.getElem_mem bound', h.get bound bound'⟩

theorem exists_left_of_mem {α β : Type} {R : α → β → Prop} {as : List α} {bs : List β}
    (h : List.Forall₂ R as bs) {b : β} (inside : b ∈ bs) : ∃ a ∈ as, R a b := by
  obtain ⟨a, opposite, related⟩ := exists_right_of_mem h.flip inside
  exact ⟨a, opposite, related⟩

theorem Except.bind_eq_ok {ε α β : Type} {x : Except ε α} {f : α → Except ε β} {b : β} :
    (x >>= f) = .ok b ↔ ∃ a, x = .ok a ∧ f a = .ok b := by
  cases x <;> simp [bind, Except.bind]

theorem Except.bind_eq_error {ε α β : Type} {x : Except ε α} {f : α → Except ε β} {e : ε} :
    (x >>= f) = .error e ↔ x = .error e ∨ ∃ a, x = .ok a ∧ f a = .error e := by
  cases x <;> simp [bind, Except.bind]

theorem Except.andThen_eq_ok {ε β : Type} {x : Except ε Unit} {y : Except ε β} {b : β} :
    (do x; y) = .ok b ↔ x = .ok () ∧ y = .ok b := by
  cases x <;> simp [bind, Except.bind]

@[simp] theorem Except.ok_bind {ε α β : Type} {a : α} {f : α → Except ε β} :
    (Except.ok a >>= f) = f a := rfl

@[simp] theorem Except.mapError_eq_ok {ε ε' α : Type} {f : ε → ε'} {x : Except ε α} {a : α} :
    x.mapError f = .ok a ↔ x = .ok a := by
  cases x <;> simp [Except.mapError]

theorem Except.toOption_eq_some {ε α : Type} {x : Except ε α} {a : α} :
    x.toOption = some a ↔ x = .ok a := by
  cases x <;> simp [Except.toOption]

theorem Except.mapM_eq_ok {ε α β : Type} {f : α → Except ε β} {xs : List α} {ys : List β} :
    xs.mapM f = .ok ys ↔ List.Forall₂ (fun x y => f x = .ok y) xs ys := by
  induction xs generalizing ys with
  | nil => cases ys <;> simp [pure, Except.pure]
  | cons x xs ih =>
    rw [List.mapM_cons]
    simp only [Except.bind_eq_ok, pure, Except.pure, Except.ok.injEq]
    constructor
    · rintro ⟨y, first, rest, others, rfl⟩
      exact .cons first (ih.mp others)
    · rintro (_ | ⟨first, others⟩)
      exact ⟨_, first, _, ih.mpr others, rfl⟩

/-- Steps that give what others give, but for a function, do so one after the other. -/
theorem Except.mapM_eq_map {ε α β γ : Type} {f : α → Except ε β} {f' : α → Except ε γ} {h : β → γ}
    {xs : List α} {ys : List β} (done : xs.mapM f = .ok ys)
    (each : ∀ x ∈ xs, ∀ y, f x = .ok y → f' x = .ok (h y)) : xs.mapM f' = .ok (ys.map h) := by
  rw [Except.mapM_eq_ok] at done ⊢
  induction done with
  | nil => exact .nil
  | cons first _ ih =>
    obtain ⟨here, others⟩ := List.forall_mem_cons.mp each
    exact .cons (here _ first) (ih others)

/-- A sequence of steps that all give a result gives one. -/
theorem Except.exists_mapM {ε α β : Type} {f : α → Except ε β} {xs : List α}
    (each : ∀ x ∈ xs, ∃ y, f x = .ok y) : ∃ ys, xs.mapM f = .ok ys := by
  induction xs with
  | nil => exact ⟨[], rfl⟩
  | cons x rest ih =>
    obtain ⟨⟨y, first⟩, others⟩ := List.forall_mem_cons.mp each
    obtain ⟨ys, rest⟩ := ih others
    exact ⟨y :: ys, Except.mapM_eq_ok.mpr (.cons first (Except.mapM_eq_ok.mp rest))⟩

/-- A sequence of steps gives a result when each of them does. -/
theorem Except.exists_mapM_iff {ε α β : Type} {f : α → Except ε β} {xs : List α} :
    (∃ ys, xs.mapM f = .ok ys) ↔ ∀ x ∈ xs, ∃ y, f x = .ok y := by
  refine ⟨fun ⟨ys, done⟩ x inside => ?_, Except.exists_mapM⟩
  obtain ⟨y, -, found⟩ := exists_right_of_mem (Except.mapM_eq_ok.mp done) inside
  exact ⟨y, found⟩

/-- All results of steps have a property when all steps have another one, if the two properties
agree for each step and its result. -/
theorem Except.forall_mapM_iff {ε α β : Type} {f : α → Except ε β} {xs : List α} {ys : List β}
    {P : α → Prop} {Q : β → Prop} (done : xs.mapM f = .ok ys)
    (each : ∀ x ∈ xs, ∀ y, f x = .ok y → (Q y ↔ P x)) : (∀ y ∈ ys, Q y) ↔ ∀ x ∈ xs, P x := by
  have steps := Except.mapM_eq_ok.mp done
  constructor
  · intro all x inside
    obtain ⟨y, isResult, found⟩ := exists_right_of_mem steps inside
    exact (each x inside y found).mp (all y isResult)
  · intro all y isResult
    obtain ⟨x, inside, found⟩ := exists_left_of_mem steps isResult
    exact (each x inside y found).mpr (all x inside)

/-- A sequence of steps fails with the first error among them. -/
theorem Except.mapM_eq_error {ε α β : Type} {f : α → Except ε β} {xs : List α} {e : ε} :
    xs.mapM f = .error e ↔ ∃ before x after, xs = before ++ x :: after ∧
      (∀ y ∈ before, ∃ z, f y = .ok z) ∧ f x = .error e := by
  induction xs with
  | nil => simp [pure, Except.pure]
  | cons x rest ih =>
    simp only [List.mapM_cons, Except.bind_eq_error, ih, pure, Except.pure, reduceCtorEq, and_false,
      exists_false, or_false]
    constructor
    · rintro (failed | ⟨y, first, before, z, after, rfl, fine, failed⟩)
      · exact ⟨[], x, rest, rfl, nofun, failed⟩
      · exact ⟨x :: before, z, after, rfl, List.forall_mem_cons.mpr ⟨⟨y, first⟩, fine⟩, failed⟩
    · rintro ⟨before, z, after, parts, fine, failed⟩
      cases before with
      | nil =>
        cases parts
        exact .inl failed
      | cons y before =>
        cases parts
        obtain ⟨⟨first, ok⟩, fine⟩ := List.forall_mem_cons.mp fine
        exact .inr ⟨first, ok, before, z, after, rfl, fine, failed⟩

section

variable {ε α β : Type} {f : α → Except ε (List β)} {xs : List α} {ys : List β}
  (done : (do return (← xs.mapM f).flatten : Except ε (List β)) = .ok ys)
include done

/-- What steps give together comes from one of them. -/
theorem Except.exists_of_mem_flatten {y : β} (inside : y ∈ ys) :
    ∃ x ∈ xs, ∃ part, f x = .ok part ∧ y ∈ part := by
  simp only [Except.bind_eq_ok, Except.mapM_eq_ok, pure, Except.pure, Except.ok.injEq] at done
  obtain ⟨parts, each, rfl⟩ := done
  obtain ⟨part, isPart, inside⟩ := List.mem_flatten.mp inside
  obtain ⟨x, isStep, found⟩ := exists_left_of_mem each isPart
  exact ⟨x, isStep, part, found, inside⟩

/-- What a step gives is among what they give together. -/
theorem Except.exists_subset_flatten {x : α} (inside : x ∈ xs) :
    ∃ part, f x = .ok part ∧ part ⊆ ys := by
  simp only [Except.bind_eq_ok, Except.mapM_eq_ok, pure, Except.pure, Except.ok.injEq] at done
  obtain ⟨parts, each, rfl⟩ := done
  obtain ⟨part, isPart, found⟩ := exists_right_of_mem each inside
  exact ⟨part, found, fun y h => List.mem_flatten.mpr ⟨part, isPart, h⟩⟩

end

theorem Except.exists_append_iff {ε α : Type} {x y : Except ε (List α)} :
    (∃ zs, (do return (← x) ++ (← y) : Except ε (List α)) = .ok zs) ↔
      (∃ xs, x = .ok xs) ∧ ∃ ys, y = .ok ys := by
  cases x <;> cases y <;> simp [bind, Except.bind, pure, Except.pure]

theorem Except.map_append_congr {ε α β : Type} {f : α → β} {x x' y y' : Except ε (List α)}
    (hx : x.map (List.map f) = x'.map (List.map f))
    (hy : y.map (List.map f) = y'.map (List.map f)) :
    (do return (← x) ++ (← y) : Except ε (List α)).map (List.map f) =
      (do return (← x') ++ (← y')).map (List.map f) := by
  cases x <;> cases x' <;> cases y <;> cases y' <;>
    simp_all [Except.map, bind, Except.bind, pure, Except.pure]

theorem Except.map_mapM_congr {ε α β γ : Type} {f : β → γ} {g g' : α → Except ε β} {xs : List α}
    (each : ∀ x ∈ xs, (g x).map f = (g' x).map f) :
    (xs.mapM g).map (List.map f) = (xs.mapM g').map (List.map f) := by
  induction xs with
  | nil => rfl
  | cons x rest ih =>
    have first := each x List.mem_cons_self
    have others := ih fun y h => each y (List.mem_cons_of_mem x h)
    rw [List.mapM_cons, List.mapM_cons]
    cases hg : g x <;> cases hg' : g' x <;> cases hr : rest.mapM g <;> cases hr' : rest.mapM g' <;>
      simp_all [Except.map, bind, Except.bind, pure, Except.pure]

end CircuitGrid
