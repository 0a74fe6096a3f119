/-!
# Computations that succeed

A computation that may fail succeeds only if each of its parts does.
-/

namespace Tortoise

variable {ε α β : Type}

theorem bind_eq_ok {x : Except ε α} {f : α → Except ε β} {b : β} :
    (x >>= f) = .ok b ↔ ∃ a, x = .ok a ∧ f a = .ok b := by
  cases x with
  | error e => simp [bind, Except.bind]
  | ok a => simp [bind, Except.bind]

theorem map_eq_ok {x : Except ε α} {f : α → β} {b : β} :
    x.map f = .ok b ↔ ∃ a, x = .ok a ∧ f a = b := by
  cases x with
  | error e => simp [Except.map]
  | ok a => simp [Except.map]

theorem foldlM_cons_eq_ok {f : α → β → Except ε α} {a c : α} {b : β} {bs : List β} :
    (b :: bs).foldlM f a = .ok c ↔ ∃ a', f a b = .ok a' ∧ bs.foldlM f a' = .ok c := by
  rw [List.foldlM_cons, bind_eq_ok]

theorem foldlM_append_eq_ok {f : α → β → Except ε α} {a c : α} {bs cs : List β} :
    (bs ++ cs).foldlM f a = .ok c ↔ ∃ a', bs.foldlM f a = .ok a' ∧ cs.foldlM f a' = .ok c := by
  rw [List.foldlM_append, bind_eq_ok]

/-- A list is read as a whole if each of its members is. -/
theorem mapM_eq_some_iff {f : α → Option β} {g : α → β} {P : α → Prop} {xs : List α}
    (h : ∀ x ∈ xs, ∀ y, f x = some y ↔ P x ∧ y = g x) {ys : List β} :
    xs.mapM f = some ys ↔ (∀ x ∈ xs, P x) ∧ ys = xs.map g := by
  induction xs generalizing ys with
  | nil => simp [eq_comm]
  | cons x xs ih =>
      obtain ⟨hx, hxs⟩ := List.forall_mem_cons.1 h
      simp only [List.mapM_cons, Option.bind_eq_bind, Option.bind_eq_some_iff, hx, @ih hxs,
        Option.pure_def, Option.some.injEq, List.forall_mem_cons, List.map_cons]
      constructor
      · rintro ⟨_, ⟨hfirst, rfl⟩, _, ⟨hrest, rfl⟩, rfl⟩
        exact ⟨⟨hfirst, hrest⟩, rfl⟩
      · rintro ⟨⟨hfirst, hrest⟩, rfl⟩
        exact ⟨_, ⟨hfirst, rfl⟩, _, ⟨hrest, rfl⟩, rfl⟩

/-- The same for a list whose members carry their places, of which only errors speak. -/
theorem mapM_zipIdx_eq_ok_iff {f : α × Nat → Except ε β} {g : α → β} {P : α → Prop} {xs : List α}
    (h : ∀ x ∈ xs, ∀ i y, f (x, i) = .ok y ↔ P x ∧ y = g x) {k : Nat} {ys : List β} :
    (xs.zipIdx k).mapM f = .ok ys ↔ (∀ x ∈ xs, P x) ∧ ys = xs.map g := by
  induction xs generalizing k ys with
  | nil => simp [pure, Except.pure, eq_comm]
  | cons x xs ih =>
      obtain ⟨hx, hxs⟩ := List.forall_mem_cons.1 h
      simp only [List.zipIdx_cons, List.mapM_cons, bind_eq_ok, hx, @ih hxs, pure, Except.pure,
        Except.ok.injEq, List.forall_mem_cons, List.map_cons]
      constructor
      · rintro ⟨_, ⟨hfirst, rfl⟩, _, ⟨hrest, rfl⟩, rfl⟩
        exact ⟨⟨hfirst, hrest⟩, rfl⟩
      · rintro ⟨⟨hfirst, hrest⟩, rfl⟩
        exact ⟨_, ⟨hfirst, rfl⟩, _, ⟨hrest, rfl⟩, rfl⟩

/-- Whatever is read has been read from a member. -/
theorem exists_of_mapM_eq_some {f : α → Option β} {xs : List α} {ys : List β}
    (h : xs.mapM f = some ys) : ys.length = xs.length ∧ ∀ y ∈ ys, ∃ x ∈ xs, f x = some y := by
  induction xs generalizing ys with
  | nil =>
      obtain rfl := Option.some.inj h
      simp
  | cons x xs ih =>
      simp only [List.mapM_cons, Option.bind_eq_bind, Option.bind_eq_some_iff] at h
      obtain ⟨y, hy, more, hmore, hend⟩ := h
      obtain rfl := Option.some.inj hend
      obtain ⟨hlength, hall⟩ := ih hmore
      refine ⟨by simp [hlength], List.forall_mem_cons.2 ⟨⟨x, by simp, hy⟩, fun z hz => ?_⟩⟩
      obtain ⟨w, hw, hz⟩ := hall z hz
      exact ⟨w, List.mem_cons_of_mem _ hw, hz⟩

theorem exists_of_mapM_eq_ok {f : α → Except ε β} {xs : List α} {ys : List β}
    (h : xs.mapM f = .ok ys) : ys.length = xs.length ∧ ∀ y ∈ ys, ∃ x ∈ xs, f x = .ok y := by
  induction xs generalizing ys with
  | nil =>
      obtain rfl := Except.ok.inj h
      simp
  | cons x xs ih =>
      simp only [List.mapM_cons, bind_eq_ok] at h
      obtain ⟨y, hy, more, hmore, hend⟩ := h
      obtain rfl := Except.ok.inj hend
      obtain ⟨hlength, hall⟩ := ih hmore
      refine ⟨by simp [hlength], List.forall_mem_cons.2 ⟨⟨x, by simp, hy⟩, fun z hz => ?_⟩⟩
      obtain ⟨w, hw, hz⟩ := hall z hz
      exact ⟨w, List.mem_cons_of_mem _ hw, hz⟩

end Tortoise
