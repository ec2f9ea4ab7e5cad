/-!
# Lists of answers

A list is answered member by member, and the first refusal refuses it whole.  A list of pairs that is laid out flat
is indexed by the halves of the positions.
-/

namespace PulseWidth

variable {α β ε : Type}

theorem map_eq_ok {f : α → β} {x : Except ε α} {b : β} (h : x.map f = .ok b) : ∃ a, x = .ok a ∧ f a = b := by
  cases x with
  | error reason => cases h
  | ok a => exact ⟨a, rfl, Except.ok.inj h⟩

theorem bind_eq_ok {f : α → Except ε β} {x : Except ε α} {b : β} (h : (x >>= f) = .ok b) :
    ∃ a, x = .ok a ∧ f a = .ok b := by
  cases x with
  | error reason => cases h
  | ok a => exact ⟨a, rfl, h⟩

theorem bind_eq_error {f : α → Except ε β} {x : Except ε α} {e : ε} (h : (x >>= f) = .error e) :
    x = .error e ∨ ∃ a, x = .ok a ∧ f a = .error e := by
  cases x with
  | error reason =>
    cases h
    exact .inl rfl
  | ok a => exact .inr ⟨a, rfl, h⟩

/-- The answers to a list are the answers to its members, in their order. -/
theorem mapM_eq_ok {f : α → Except ε β} {xs : List α} {ys : List β} (h : xs.mapM f = .ok ys) :
    ys.length = xs.length ∧ ∀ i (hx : i < xs.length) (hy : i < ys.length), f xs[i] = .ok ys[i] := by
  induction xs generalizing ys with
  | nil =>
    cases h
    exact ⟨rfl, fun i hx => absurd hx (by simp)⟩
  | cons x rest ih =>
    rw [List.mapM_cons] at h
    obtain ⟨y, hy, h⟩ := bind_eq_ok h
    obtain ⟨others, hothers, h⟩ := bind_eq_ok h
    cases h
    obtain ⟨hlength, hget⟩ := ih hothers
    refine ⟨by simp [hlength], ?_⟩
    intro i hx hi
    cases i with
    | zero => exact hy
    | succ i => exact hget i (by simpa using hx) (by simpa using hi)

/-- A list whose members are all answered is answered. -/
theorem mapM_ok_of_forall {f : α → Except ε β} {xs : List α} (h : ∀ x ∈ xs, ∃ y, f x = .ok y) :
    ∃ ys, xs.mapM f = .ok ys := by
  induction xs with
  | nil => exact ⟨[], rfl⟩
  | cons x rest ih =>
    obtain ⟨y, hy⟩ := h x (by simp)
    obtain ⟨ys, hys⟩ := ih fun x' hx' => h x' (by simp [hx'])
    exact ⟨y :: ys, by rw [List.mapM_cons, hy, hys]; rfl⟩

theorem mapM_eq_ok_map {f : α → Except ε β} {g : α → β} {xs : List α} (h : ∀ x ∈ xs, f x = .ok (g x)) :
    xs.mapM f = .ok (xs.map g) := by
  induction xs with
  | nil => rfl
  | cons x rest ih =>
    rw [List.mapM_cons, h x (by simp), ih fun x' hx' => h x' (by simp [hx'])]
    rfl

/-- A list is refused for the reason of its first member that is refused. -/
theorem mapM_eq_error_iff {f : α → Except ε β} {xs : List α} {e : ε} : xs.mapM f = .error e ↔
    ∃ i, ∃ h : i < xs.length, f xs[i] = .error e ∧ ∀ j, ∀ hj : j < i, ∃ y, f xs[j] = .ok y := by
  induction xs with
  | nil => simp [pure, Except.pure]
  | cons x rest ih =>
    rw [List.mapM_cons]
    cases hx : f x with
    | error reason =>
      constructor
      · intro h
        cases h
        exact ⟨0, by simp, hx, fun j hj => absurd hj (by omega)⟩
      · rintro ⟨i, hi, hrefused, hbefore⟩
        cases i with
        | zero =>
          rw [List.getElem_cons_zero, hx] at hrefused
          cases hrefused
          rfl
        | succ i =>
          obtain ⟨y, hy⟩ := hbefore 0 (by omega)
          rw [List.getElem_cons_zero, hx] at hy
          cases hy
    | ok y =>
      have hrest : (Except.ok y >>= fun y => rest.mapM f >>= fun ys => pure (y :: ys)) = .error e ↔
          rest.mapM f = .error e := by
        cases rest.mapM f with
        | error reason => exact Iff.rfl
        | ok ys => simp [bind, Except.bind, pure, Except.pure]
      rw [hrest, ih]
      constructor
      · rintro ⟨i, hi, hrefused, hbefore⟩
        refine ⟨i + 1, by simpa using hi, hrefused, fun j hj => ?_⟩
        cases j with
        | zero => exact ⟨y, hx⟩
        | succ j => exact hbefore j (by omega)
      · rintro ⟨i, hi, hrefused, hbefore⟩
        cases i with
        | zero =>
          rw [List.getElem_cons_zero, hx] at hrefused
          cases hrefused
        | succ i => exact ⟨i, by simpa using hi, hrefused, fun j hj => hbefore (j + 1) (by omega)⟩

/-- A member of a list with one more at the end is that one, or is followed by it. -/
theorem snoc_eq_append_cons_iff {xs before after : List α} {last x : α} : xs ++ [last] = before ++ x :: after ↔
    (after = [] ∧ xs = before ∧ last = x) ∨ ∃ init, after = init ++ [last] ∧ xs = before ++ x :: init := by
  constructor
  · intro h
    rcases List.eq_nil_or_concat after with rfl | ⟨init, y, rfl⟩
    · obtain ⟨hbefore, hlast⟩ := List.append_singleton_inj.1 h
      exact .inl ⟨rfl, hbefore, hlast⟩
    · rw [List.concat_eq_append, ← List.cons_append, ← List.append_assoc] at h
      obtain ⟨hbefore, rfl⟩ := List.append_singleton_inj.1 h
      exact .inr ⟨init, List.concat_eq_append, hbefore⟩
  · rintro (⟨rfl, rfl, rfl⟩ | ⟨init, rfl, rfl⟩)
    · rfl
    · simp

/-- A search from the end of a list looks at the last member first. -/
theorem findSome?_reverse_snoc {f : α → Option β} {xs : List α} {x : α} :
    (xs ++ [x]).reverse.findSome? f = (f x).or (xs.reverse.findSome? f) := by
  rw [List.reverse_append, List.reverse_singleton, List.singleton_append, List.findSome?_cons]
  cases f x <;> rfl

theorem length_flatten_pairs {xss : List (List α)} (h : ∀ xs ∈ xss, xs.length = 2) :
    xss.flatten.length = 2 * xss.length := by
  induction xss with
  | nil => rfl
  | cons xs rest ih =>
    have hrest := ih fun ys hys => h ys (by simp [hys])
    rw [List.flatten_cons, List.length_append, h xs (by simp), hrest, List.length_cons]
    omega

theorem getElem?_flatten_pairs {xss : List (List α)} (h : ∀ xs ∈ xss, xs.length = 2) (i : Nat) :
    xss.flatten[i]? = xss[i / 2]?.bind fun xs => xs[i % 2]? := by
  induction xss generalizing i with
  | nil => simp
  | cons xs rest ih =>
    have hpair : xs.length = 2 := h xs (by simp)
    rw [List.flatten_cons, List.getElem?_append, hpair]
    split
    · rename_i hi
      rw [Nat.div_eq_of_lt hi, Nat.mod_eq_of_lt hi]
      rfl
    · rename_i hi
      obtain ⟨j, rfl⟩ : ∃ j, i = j + 2 := ⟨i - 2, by omega⟩
      rw [Nat.add_sub_cancel, ih fun ys hys => h ys (by simp [hys]), Nat.add_div_right _ (by omega),
        Nat.add_mod_right, List.getElem?_cons_succ]

end PulseWidth
