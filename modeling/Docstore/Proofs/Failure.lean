import Mathlib.Data.List.Forall2
import Docstore.Failure

/-!
# Success and failure of readers

Readers in `Except Failure` are put together by `map`, `bind` and `mapM`.  Two readers
in a row give a result through a result of the first (`bind_eq_ok_iff`).  A list
is read exactly when each of its items is (`exists_mapM_eq_ok_iff`), with what is
kept of each (`map_eq_map_of_mapM_eq_ok`), and whatever failure comes out of a reader
comes out of one of its parts: `FailsOnly` is kept by all three.

Two readers agree up to a view of their results when they fail alike, or give results that
the view does not tell apart.  `AgreeUpTo` is kept by `map` and `bind`.
-/

namespace Docstore

variable {α β γ : Type}

/-! ### Success -/

theorem exists_map_eq_ok_iff {x : Except Failure α} {g : α → β} :
    (∃ b, x.map g = .ok b) ↔ ∃ a, x = .ok a := by
  cases x with
  | error f => simp [Except.map]
  | ok a => simp [Except.map]

theorem map_eq_ok_iff {x : Except Failure α} {g : α → β} {b : β} :
    x.map g = .ok b ↔ ∃ a, x = .ok a ∧ g a = b := by
  cases x with
  | error f => simp [Except.map]
  | ok a => simp [Except.map]

theorem bind_eq_ok_iff {x : Except Failure α} {g : α → Except Failure β} {b : β} :
    (x >>= g) = .ok b ↔ ∃ a, x = .ok a ∧ g a = .ok b := by
  cases x with
  | error f => simp [bind, Except.bind]
  | ok a => simp [bind, Except.bind]

theorem ite_error_eq_ok_iff {c : Prop} [Decidable c] {f : Failure} {x : Except Failure α} {a : α} :
    (if c then .error f else x) = .ok a ↔ ¬c ∧ x = .ok a := by
  by_cases hc : c
  · simp [hc]
  · simp [hc]

theorem exists_bind_eq_ok_iff {x : Except Failure α} {g : α → Except Failure β} :
    (∃ b, (x >>= g) = .ok b) ↔ ∃ a, x = .ok a ∧ ∃ b, g a = .ok b := by
  simp only [bind_eq_ok_iff]
  constructor
  · rintro ⟨b, a, ha, hb⟩
    exact ⟨a, ha, b, hb⟩
  · rintro ⟨a, ha, b, hb⟩
    exact ⟨b, a, ha, hb⟩

theorem both_eq_ok_iff {x : Except Failure α} {y : Except Failure β} {g : α → β → γ} {c : γ} :
    (do let a ← x; let b ← y; .ok (g a b)) = Except.ok c ↔
      ∃ a b, x = .ok a ∧ y = .ok b ∧ c = g a b := by
  simp only [bind_eq_ok_iff]
  constructor
  · rintro ⟨a, ha, b, hb, hc⟩
    exact ⟨a, b, ha, hb, (Except.ok.inj hc).symm⟩
  · rintro ⟨a, b, ha, hb, rfl⟩
    exact ⟨a, ha, b, hb, rfl⟩

theorem exists_both_eq_ok_iff {x : Except Failure α} {y : Except Failure β} {g : α → β → γ} :
    (∃ c a b, x = .ok a ∧ y = .ok b ∧ c = g a b) ↔ (∃ a, x = .ok a) ∧ ∃ b, y = .ok b := by
  constructor
  · rintro ⟨_, a, b, ha, hb, -⟩
    exact ⟨⟨a, ha⟩, b, hb⟩
  · rintro ⟨⟨a, ha⟩, b, hb⟩
    exact ⟨g a b, a, b, ha, hb, rfl⟩

theorem mapM_cons_eq_ok_iff {f : α → Except Failure β} {x : α} {xs : List α} {ys : List β} :
    (x :: xs).mapM f = .ok ys ↔
      ∃ first more, f x = .ok first ∧ xs.mapM f = .ok more ∧ ys = first :: more := by
  rw [List.mapM_cons]
  exact both_eq_ok_iff

/-- A list is read exactly when each of its items is. -/
theorem exists_mapM_eq_ok_iff {f : α → Except Failure β} {xs : List α} :
    (∃ ys, xs.mapM f = .ok ys) ↔ ∀ x ∈ xs, ∃ y, f x = .ok y := by
  induction xs with
  | nil => exact ⟨fun _ x hx => absurd hx (by simp), fun _ => ⟨[], rfl⟩⟩
  | cons x xs ih =>
    simp only [mapM_cons_eq_ok_iff]
    rw [List.forall_mem_cons, ← ih, exists_both_eq_ok_iff]

/-- Where an item is read as what a choice says of it, a list is read when there is a choice for
each of its items, as the choices one after the other. -/
theorem mapM_eq_ok_iff_filterMap {f : α → Except Failure β} {g : α → Option β} {xs : List α}
    (hfg : ∀ x ∈ xs, ∀ y, f x = .ok y ↔ g x = some y) {ys : List β} :
    xs.mapM f = .ok ys ↔ (∀ x ∈ xs, ∃ y, g x = some y) ∧ ys = xs.filterMap g := by
  induction xs generalizing ys with
  | nil =>
    constructor
    · intro h
      exact ⟨fun x hx => absurd hx (by simp), (Except.ok.inj h).symm⟩
    · rintro ⟨-, rfl⟩
      rfl
  | cons x xs ih =>
    obtain ⟨hx, hxs⟩ := List.forall_mem_cons.mp hfg
    rw [mapM_cons_eq_ok_iff, List.forall_mem_cons]
    constructor
    · rintro ⟨first, more, hfirst, hmore, rfl⟩
      obtain ⟨heach, rfl⟩ := (ih hxs).mp hmore
      have hg := (hx first).mp hfirst
      exact ⟨⟨⟨first, hg⟩, heach⟩, by rw [List.filterMap_cons, hg]⟩
    · rintro ⟨⟨⟨first, hg⟩, heach⟩, rfl⟩
      exact ⟨first, _, (hx first).mpr hg, (ih hxs).mpr ⟨heach, rfl⟩,
        by rw [List.filterMap_cons, hg]⟩

/-- What a list is read as was read from its items. -/
theorem exists_of_mem_of_mapM_eq_ok {f : α → Except Failure β} {xs : List α} {ys : List β}
    (h : xs.mapM f = .ok ys) {y : β} (hy : y ∈ ys) : ∃ x ∈ xs, f x = .ok y := by
  induction xs generalizing ys with
  | nil =>
    obtain rfl := Except.ok.inj h
    exact absurd hy (by simp)
  | cons x xs ih =>
    obtain ⟨first, more, hfirst, hmore, rfl⟩ := mapM_cons_eq_ok_iff.mp h
    rcases List.mem_cons.mp hy with rfl | hy
    · exact ⟨x, List.mem_cons_self, hfirst⟩
    · obtain ⟨x', hx', hread⟩ := ih hmore hy
      exact ⟨x', List.mem_cons_of_mem x hx', hread⟩

/-- What a reader keeps of each item, it keeps of a list of them. -/
theorem map_eq_map_of_mapM_eq_ok {f : α → Except Failure β} {g : β → γ} {k : α → γ}
    (hf : ∀ x y, f x = .ok y → g y = k x) {xs : List α} {ys : List β} (h : xs.mapM f = .ok ys) :
    ys.map g = xs.map k := by
  induction xs generalizing ys with
  | nil =>
    obtain rfl := Except.ok.inj h
    rfl
  | cons x xs ih =>
    obtain ⟨first, more, hfirst, hmore, rfl⟩ := mapM_cons_eq_ok_iff.mp h
    rw [List.map_cons, List.map_cons, hf x first hfirst, ih hmore]

theorem forall₂_of_mapM_eq_ok {f : α → Except Failure β} {xs : List α} {ys : List β}
    (h : xs.mapM f = .ok ys) : List.Forall₂ (fun x y => f x = .ok y) xs ys := by
  induction xs generalizing ys with
  | nil =>
    obtain rfl := Except.ok.inj h
    exact .nil
  | cons x xs ih =>
    obtain ⟨first, more, hfirst, hmore, rfl⟩ := mapM_cons_eq_ok_iff.mp h
    exact .cons hfirst (ih hmore)

theorem mapM_eq_of_forall₂ {f : α → Except Failure β} {xs ys : List α}
    (h : List.Forall₂ (fun x y => f x = f y) xs ys) : xs.mapM f = ys.mapM f := by
  induction h with
  | nil => rfl
  | cons hx _ ih => rw [List.mapM_cons, List.mapM_cons, hx, ih]

/-! ### Failures -/

/-- Whatever failure there is, it is one of those allowed. -/
def FailsOnly (allowed : Failure → Prop) (x : Except Failure α) : Prop :=
  ∀ f, x = .error f → allowed f

namespace FailsOnly

variable {allowed : Failure → Prop} {x : Except Failure α}

theorem ok (a : α) : FailsOnly allowed (.ok a : Except Failure α) :=
  fun _ h => absurd h (by simp)

theorem error {f : Failure} (h : allowed f) : FailsOnly allowed (.error f : Except Failure α) := by
  intro g hg
  obtain rfl := Except.error.inj hg
  exact h

theorem mono {other : Failure → Prop} (h : FailsOnly allowed x)
    (hother : ∀ f, allowed f → other f) : FailsOnly other x :=
  fun f hf => hother f (h f hf)

theorem map (h : FailsOnly allowed x) (g : α → β) : FailsOnly allowed (x.map g) := by
  cases x with
  | error f => exact error (h f rfl)
  | ok a => exact ok (g a)

theorem bind {g : α → Except Failure β} (h : FailsOnly allowed x)
    (hg : ∀ a, FailsOnly allowed (g a)) : FailsOnly allowed (x >>= g) := by
  cases x with
  | error f => exact error (h f rfl)
  | ok a => exact hg a

theorem mapM {f : α → Except Failure β} {xs : List α} (h : ∀ x ∈ xs, FailsOnly allowed (f x)) :
    FailsOnly allowed (xs.mapM f) := by
  induction xs with
  | nil => exact ok []
  | cons x xs ih =>
    rw [List.mapM_cons]
    have hx : FailsOnly allowed (f x) := h x List.mem_cons_self
    have hxs := ih fun y hy => h y (List.mem_cons_of_mem x hy)
    exact hx.bind fun _ => hxs.bind fun _ => ok _

end FailsOnly

/-! ### Agreement -/

/-- Both fail alike, or both give results that look the same under a view of them. -/
def AgreeUpTo (view : α → γ) (x y : Except Failure α) : Prop := x.map view = y.map view

namespace AgreeUpTo

variable {view : α → γ} {x y : Except Failure α}

theorem refl (x : Except Failure α) : AgreeUpTo view x x := rfl

theorem ok {a b : α} (h : view a = view b) : AgreeUpTo view (.ok a) (.ok b) := congrArg Except.ok h

theorem cases (h : AgreeUpTo view x y) :
    (∃ f, x = .error f ∧ y = .error f) ∨ ∃ a b, x = .ok a ∧ y = .ok b ∧ view a = view b := by
  cases x with
  | error f =>
    cases y with
    | error g =>
      obtain rfl : f = g := Except.error.inj h
      exact Or.inl ⟨f, rfl, rfl⟩
    | ok b => exact absurd h (by simp [AgreeUpTo, Except.map])
  | ok a =>
    cases y with
    | error g => exact absurd h (by simp [AgreeUpTo, Except.map])
    | ok b => exact Or.inr ⟨a, b, rfl, rfl, Except.ok.inj h⟩

theorem exists_ok_iff (h : AgreeUpTo view x y) : (∃ a, x = .ok a) ↔ ∃ b, y = .ok b := by
  rcases h.cases with ⟨f, rfl, rfl⟩ | ⟨a, b, rfl, rfl, -⟩
  · rfl
  · exact ⟨fun _ => ⟨b, rfl⟩, fun _ => ⟨a, rfl⟩⟩

theorem bind {δ : Type} {view' : β → δ} {k l : α → Except Failure β} (h : AgreeUpTo view x y)
    (hnext : ∀ a b, view a = view b → AgreeUpTo view' (k a) (l b)) :
    AgreeUpTo view' (x >>= k) (y >>= l) := by
  rcases h.cases with ⟨f, rfl, rfl⟩ | ⟨a, b, rfl, rfl, hab⟩
  · rfl
  · exact hnext a b hab

theorem map {δ : Type} {view' : β → δ} {k : α → β} (h : AgreeUpTo view x y)
    (hk : ∀ a b, view a = view b → view' (k a) = view' (k b)) :
    AgreeUpTo view' (x.map k) (y.map k) := by
  rcases h.cases with ⟨f, rfl, rfl⟩ | ⟨a, b, rfl, rfl, hab⟩
  · rfl
  · exact ok (hk a b hab)

end AgreeUpTo

end Docstore
