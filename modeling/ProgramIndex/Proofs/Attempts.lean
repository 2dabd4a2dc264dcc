import Mathlib.Data.List.Forall2

/-!
Lists of attempts, made one after the other up to the first that fails.
-/

namespace ProgramIndex

variable {α β ε : Type} {f : α → Except ε β}

theorem map_eq_ok_iff {γ : Type} {attempt : Except ε β} {g : β → γ} {result : γ} :
    attempt.map g = .ok result ↔ ∃ value, attempt = .ok value ∧ g value = result := by
  cases attempt <;> simp [Except.map]

/-- What is done with a result does not repair a failure. -/
theorem map_eq_error_iff {γ : Type} {attempt : Except ε β} {g : β → γ} {fault : ε} :
    attempt.map g = .error fault ↔ attempt = .error fault := by
  cases attempt <;> simp [Except.map]

theorem bind_eq_ok_iff {attempt : Except ε α} {result : β} :
    (attempt >>= f) = .ok result ↔ ∃ value, attempt = .ok value ∧ f value = .ok result := by
  cases attempt <;> simp [bind, Except.bind]

/-- Of two attempts either the first one fails, or the second one does with what the first
one gave. -/
theorem bind_eq_error_iff {attempt : Except ε α} {fault : ε} :
    (attempt >>= f) = .error fault ↔
      attempt = .error fault ∨ ∃ value, attempt = .ok value ∧ f value = .error fault := by
  cases attempt <;> simp [bind, Except.bind]

theorem exists_error_of_toOption {attempt : Except ε β} (hNone : attempt.toOption = none) :
    ∃ fault, attempt = .error fault := by
  cases attempt with
  | error fault => exact ⟨fault, rfl⟩
  | ok value => exact nomatch hNone

/-! ### Lists of attempts -/

/-- A list of attempts succeeds if the first one and the remaining ones do. -/
theorem mapM_cons_eq_ok_iff {x : α} {rest : List α} {ys : List β} :
    (x :: rest).mapM f = .ok ys ↔
      ∃ y, f x = .ok y ∧ ∃ others, rest.mapM f = .ok others ∧ y :: others = ys := by
  simp only [List.mapM_cons, bind_eq_ok_iff, pure, Except.pure, Except.ok.injEq]

/-- A list of attempts fails with its first one, or with the remaining ones if the first one
has succeeded. -/
theorem mapM_cons_eq_error_iff {x : α} {rest : List α} {fault : ε} :
    (x :: rest).mapM f = .error fault ↔
      f x = .error fault ∨ (∃ y, f x = .ok y) ∧ rest.mapM f = .error fault := by
  simp only [List.mapM_cons, bind_eq_error_iff, pure, Except.pure, reduceCtorEq, and_false,
    exists_false, or_false, exists_and_right]

/-- A list of attempts succeeds exactly if each of them does. -/
theorem mapM_eq_ok_iff {xs : List α} {ys : List β} :
    xs.mapM f = .ok ys ↔ xs.map f = ys.map Except.ok := by
  induction xs generalizing ys with
  | nil => simp [pure, Except.pure, eq_comm]
  | cons x rest ih =>
      rw [mapM_cons_eq_ok_iff, List.map_cons]
      constructor
      · rintro ⟨y, hFirst, others, hRest, rfl⟩
        rw [List.map_cons, hFirst, ih.mp hRest]
      · intro hMap
        obtain ⟨y, others, rfl, hFirst, hRest⟩ := List.map_eq_cons_iff.mp hMap.symm
        exact ⟨y, hFirst.symm, others, ih.mpr hRest.symm, rfl⟩

/-- The same as a relation between the two lists. -/
theorem mapM_eq_ok_iff_forall₂ {xs : List α} {ys : List β} :
    xs.mapM f = .ok ys ↔ List.Forall₂ (fun x y => f x = .ok y) xs ys := by
  rw [mapM_eq_ok_iff, ← List.forall₂_eq_eq_eq, List.forall₂_map_left_iff,
    List.forall₂_map_right_iff]

/-- Each attempt of a list that succeeds has succeeded. -/
theorem exists_ok_of_mapM {xs : List α} {ys : List β} (hAll : xs.mapM f = .ok ys) {x : α}
    (hMem : x ∈ xs) : ∃ y, f x = .ok y := by
  have hOk : f x ∈ ys.map Except.ok := by
    rw [← mapM_eq_ok_iff.mp hAll]
    exact List.mem_map_of_mem hMem
  obtain ⟨y, -, hEach⟩ := List.mem_map.mp hOk
  exact ⟨y, hEach.symm⟩

/-- The results of a list are the results of its attempts. -/
theorem mem_of_mapM {xs : List α} {ys : List β} (hAll : xs.mapM f = .ok ys) {y : β} :
    y ∈ ys ↔ ∃ x ∈ xs, f x = .ok y := by
  rw [← List.mem_map, mapM_eq_ok_iff.mp hAll, List.mem_map]
  simp only [Except.ok.injEq, exists_eq_right]

/-- What each attempt of a list gives, taken together. -/
theorem exists_mapM_forall₂ {P : α → β → Prop} {xs : List α}
    (hEach : ∀ x ∈ xs, ∃ y, f x = .ok y ∧ P x y) :
    ∃ ys, xs.mapM f = .ok ys ∧ List.Forall₂ P xs ys := by
  induction xs with
  | nil => exact ⟨[], rfl, .nil⟩
  | cons x rest ih =>
      obtain ⟨y, hFirst, hHead⟩ := hEach x List.mem_cons_self
      obtain ⟨ys, hRest, hTail⟩ := ih fun z hMem => hEach z (List.mem_cons_of_mem x hMem)
      refine ⟨y :: ys, ?_, .cons hHead hTail⟩
      rw [List.mapM_cons, hFirst, hRest]
      rfl

/-- Whether a list succeeds does not depend on the order of its attempts. -/
theorem exists_mapM_ok_iff {xs : List α} :
    (∃ ys, xs.mapM f = .ok ys) ↔ ∀ x ∈ xs, ∃ y, f x = .ok y := by
  constructor
  · rintro ⟨ys, hAll⟩ x hMem
    exact exists_ok_of_mapM hAll hMem
  · intro hEach
    obtain ⟨ys, hAll, -⟩ := exists_mapM_forall₂ (P := fun _ _ => True) fun x hMem => by
      obtain ⟨y, hOk⟩ := hEach x hMem
      exact ⟨y, hOk, trivial⟩
    exact ⟨ys, hAll⟩

/-- A list of attempts fails exactly like the first of them that fails. -/
theorem mapM_eq_error_iff {xs : List α} {fault : ε} :
    xs.mapM f = .error fault ↔
      ∃ earlier x later, xs = earlier ++ x :: later ∧ (∀ y ∈ earlier, ∃ z, f y = .ok z) ∧
        f x = .error fault := by
  induction xs with
  | nil =>
      constructor
      · intro hError
        cases hError
      · rintro ⟨earlier, x, later, hNil, -, -⟩
        simp at hNil
  | cons x rest ih =>
      rw [mapM_cons_eq_error_iff, ih]
      constructor
      · rintro (hFirst | ⟨hFirst, earlier, y, later, rfl, hEarlier, hFault⟩)
        · exact ⟨[], x, rest, rfl, fun y hMem => absurd hMem List.not_mem_nil, hFirst⟩
        · exact ⟨x :: earlier, y, later, rfl, List.forall_mem_cons.mpr ⟨hFirst, hEarlier⟩,
            hFault⟩
      · rintro ⟨earlier, y, later, hSplit, hEarlier, hFault⟩
        cases earlier with
        | nil =>
            obtain ⟨rfl, -⟩ := List.cons.inj hSplit
            exact .inl hFault
        | cons z others =>
            obtain ⟨rfl, hRest⟩ := List.cons.inj hSplit
            obtain ⟨hFirst, hOthers⟩ := List.forall_mem_cons.mp hEarlier
            exact .inr ⟨hFirst, others, y, later, hRest, hOthers, hFault⟩

/-- Attempts that never fail are a function. -/
theorem mapM_eq_ok_map {xs : List α} {g : α → β} (hEach : ∀ x ∈ xs, f x = .ok (g x)) :
    xs.mapM f = .ok (xs.map g) := by
  rw [mapM_eq_ok_iff, List.map_map]
  exact List.map_congr_left hEach

/-! ### Attempts without a reason -/

section

variable {g : α → Option β}

theorem mapM_eq_some_iff {xs : List α} {ys : List β} :
    xs.mapM g = some ys ↔ List.Forall₂ (fun x y => g x = some y) xs ys := by
  induction xs generalizing ys with
  | nil => simp [eq_comm]
  | cons x rest ih =>
      rw [List.mapM_cons, List.forall₂_cons_left_iff]
      simp only [Option.bind_eq_bind, Option.bind_eq_some_iff, Option.pure_def,
        Option.some.injEq, ih]
      constructor
      · rintro ⟨y, hFirst, others, hRest, rfl⟩
        exact ⟨y, others, hFirst, hRest, rfl⟩
      · rintro ⟨y, others, hFirst, hRest, rfl⟩
        exact ⟨y, hFirst, others, hRest, rfl⟩

theorem mapM_congr {h : α → Option β} {xs : List α} (hSame : ∀ x ∈ xs, g x = h x) :
    xs.mapM g = xs.mapM h := by
  induction xs with
  | nil => rfl
  | cons x rest ih =>
      rw [List.mapM_cons, List.mapM_cons, hSame x List.mem_cons_self,
        ih fun y hMem => hSame y (List.mem_cons_of_mem x hMem)]

/-- A list of attempts that all find something finds something. -/
theorem exists_mapM_some {xs : List α} (hEach : ∀ x ∈ xs, ∃ y, g x = some y) :
    ∃ ys, xs.mapM g = some ys := by
  induction xs with
  | nil => exact ⟨[], rfl⟩
  | cons x rest ih =>
      obtain ⟨y, hFirst⟩ := hEach x List.mem_cons_self
      obtain ⟨ys, hRest⟩ := ih fun z hMem => hEach z (List.mem_cons_of_mem x hMem)
      exact ⟨y :: ys, by rw [List.mapM_cons, hFirst, hRest]; rfl⟩

end

end ProgramIndex
