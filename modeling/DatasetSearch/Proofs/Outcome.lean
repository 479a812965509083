/-! # Outcomes of computations that can fail

A computation in steps succeeds exactly if each of its steps does, and its error is that of the
first step that fails. -/

namespace Except

variable {ε α β : Type}

theorem bind_eq_ok_iff {x : Except ε α} {f : α → Except ε β} {b : β} :
    x >>= f = .ok b ↔ ∃ a, x = .ok a ∧ f a = .ok b := by
  cases x with
  | error e =>
      constructor
      · intro h
        exact nomatch h
      · rintro ⟨a, ha, -⟩
        exact nomatch ha
  | ok a =>
      constructor
      · intro h
        exact ⟨a, rfl, h⟩
      · rintro ⟨a', ha, h⟩
        cases ha
        exact h

theorem map_eq_ok_iff {f : α → β} {x : Except ε α} {b : β} :
    x.map f = .ok b ↔ ∃ a, x = .ok a ∧ f a = b := by
  cases x with
  | error e =>
      constructor
      · intro h
        exact nomatch h
      · rintro ⟨a, ha, -⟩
        exact nomatch ha
  | ok a =>
      constructor
      · intro h
        exact ⟨a, rfl, Except.ok.inj h⟩
      · rintro ⟨a', ha, h⟩
        cases ha
        exact congrArg Except.ok h

theorem toOption_eq_some_iff {x : Except ε α} {a : α} : x.toOption = some a ↔ x = .ok a := by
  cases x with
  | error e => exact iff_of_false nofun nofun
  | ok b => exact Option.some_inj.trans ⟨congrArg Except.ok, Except.ok.inj⟩

/-! ### Errors -/

theorem bind_eq_error_iff {x : Except ε α} {f : α → Except ε β} {err : ε} :
    x >>= f = .error err ↔ x = .error err ∨ ∃ a, x = .ok a ∧ f a = .error err := by
  cases x with
  | error err' =>
      constructor
      · intro h
        exact .inl (congrArg Except.error (Except.error.inj h))
      · rintro (h | ⟨a, ha, -⟩)
        · exact congrArg Except.error (Except.error.inj h)
        · exact nomatch ha
  | ok a =>
      constructor
      · intro h
        exact .inr ⟨a, rfl, h⟩
      · rintro (h | ⟨a', ha, h⟩)
        · exact nomatch h
        · cases ha
          exact h

theorem map_eq_error_iff {f : α → β} {x : Except ε α} {err : ε} :
    x.map f = .error err ↔ x = .error err := by
  cases x with
  | error err' => exact ⟨fun h => congrArg Except.error (Except.error.inj h),
      fun h => congrArg Except.error (Except.error.inj h)⟩
  | ok a => exact iff_of_false nofun nofun

/-- The error of a computation that fails. -/
def failure? : Except ε α → Option ε
  | .error err => some err
  | .ok _ => none

theorem failure?_eq_some_iff {x : Except ε α} {err : ε} :
    x.failure? = some err ↔ x = .error err := by
  cases x with
  | error err' => exact Option.some_inj.trans ⟨congrArg Except.error, Except.error.inj⟩
  | ok a => exact iff_of_false nofun nofun

theorem failure?_eq_none_iff {x : Except ε α} : x.failure? = none ↔ ∃ a, x = .ok a := by
  cases x with
  | error err => exact iff_of_false nofun fun ⟨_, h⟩ => nomatch h
  | ok a => exact iff_of_true rfl ⟨a, rfl⟩

theorem failure?_map (f : α → β) (x : Except ε α) : (x.map f).failure? = x.failure? := by
  cases x <;> rfl

/-- One computation after another: the second one comes to fail only if the first one does not. -/
theorem failure?_bind {x : Except ε α} {f : α → Except ε β} {y : Option ε}
    (h : ∀ a, (f a).failure? = y) : (x >>= f).failure? = x.failure?.or y := by
  cases x with
  | error err => rfl
  | ok a => exact h a

/-! ### Lists -/

/-- A computation over a list succeeds if it does on each element. -/
theorem mapM_eq_ok {f : α → Except ε β} {g : α → β} {l : List α} (h : ∀ a ∈ l, f a = .ok (g a)) :
    l.mapM f = .ok (l.map g) := by
  induction l with
  | nil => rfl
  | cons a l ih =>
      have ha := h a (List.mem_cons_self ..)
      have hl := ih fun b hb => h b (List.mem_cons_of_mem a hb)
      rw [List.mapM_cons, ha, hl]
      rfl

/-- Forms of the elements of a list that each give the element again. -/
theorem mapM_map_eq_ok {f : α → β} {g : β → Except ε α} {l : List α}
    (h : ∀ a ∈ l, g (f a) = .ok a) : (l.map f).mapM g = .ok l := by
  rw [List.mapM_map]
  exact (mapM_eq_ok h).trans (congrArg Except.ok (List.map_id' l))

theorem forM_eq_ok {f : α → Except ε Unit} {l : List α} (h : ∀ a ∈ l, f a = .ok ()) :
    l.forM f = .ok () := by
  induction l with
  | nil => rfl
  | cons a l ih =>
      have ha := h a (List.mem_cons_self ..)
      have hl := ih fun b hb => h b (List.mem_cons_of_mem a hb)
      show f a >>= (fun _ => l.forM f) = .ok ()
      rw [ha, hl]
      rfl

theorem forM_eq_ok_iff {f : α → Except ε Unit} {l : List α} :
    l.forM f = .ok () ↔ ∀ a ∈ l, f a = .ok () := by
  refine ⟨fun h => ?_, forM_eq_ok⟩
  induction l with
  | nil => nofun
  | cons a l ih =>
      obtain ⟨⟨⟩, ha, hl⟩ := bind_eq_ok_iff.1 h
      intro b hb
      rcases List.mem_cons.1 hb with rfl | hb
      · exact ha
      · exact ih hl b hb

/-- The error is that of an element. -/
theorem exists_of_forM_eq_error {f : α → Except ε Unit} {l : List α} {err : ε}
    (h : l.forM f = .error err) : ∃ a ∈ l, f a = .error err := by
  induction l with
  | nil => exact nomatch h
  | cons a l ih =>
      rcases bind_eq_error_iff.1 h with h | ⟨-, -, h⟩
      · exact ⟨a, List.mem_cons_self .., h⟩
      · obtain ⟨b, hb, h⟩ := ih h
        exact ⟨b, List.mem_cons_of_mem a hb, h⟩

end Except
