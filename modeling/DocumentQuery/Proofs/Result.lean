import Mathlib.Data.List.Forall2

/-!
# Results without a fault

Readers end with a value or with their first fault. These lemmas take apart what ended well: a
sequence of steps, a changed result, and a reader run on each member of a list.
-/

namespace DocumentQuery
set_option autoImplicit false

variable {ε α β : Type}

@[simp] theorem ok_bind (a : α) (f : α → Except ε β) : (.ok a >>= f : Except ε β) = f a := rfl

/-- Two steps give a value where the first gives one that the second goes on with. -/
theorem bind_eq_ok {x : Except ε α} {f : α → Except ε β} {b : β} :
    x >>= f = .ok b ↔ ∃ a, x = .ok a ∧ f a = .ok b := by
  cases x with
  | error e => simp [bind, Except.bind]
  | ok a => simp [bind, Except.bind]

theorem exists_map_eq_ok {x : Except ε α} {f : α → β} :
    (∃ b, x.map f = .ok b) ↔ ∃ a, x = .ok a := by
  cases x with
  | error e => simp [Except.map]
  | ok a => simp [Except.map]

theorem map_eq_ok {x : Except ε α} {f : α → β} {b : β} :
    x.map f = .ok b ↔ ∃ a, x = .ok a ∧ f a = b := by
  cases x with
  | error e => simp [Except.map]
  | ok a => simp [Except.map]

theorem map_eq_error {x : Except ε α} {f : α → β} {e : ε} :
    x.map f = .error e ↔ x = .error e := by
  cases x with
  | error e => simp [Except.map]
  | ok a => simp [Except.map]

theorem mapError_eq_ok {ε' : Type} {x : Except ε α} {f : ε → ε'} {a : α} :
    x.mapError f = .ok a ↔ x = .ok a := by
  cases x with
  | error e => simp [Except.mapError]
  | ok a => simp [Except.mapError]

theorem mapError_eq_error {ε' : Type} {x : Except ε α} {f : ε → ε'} {e : ε'} :
    x.mapError f = .error e ↔ ∃ e', x = .error e' ∧ f e' = e := by
  cases x with
  | error e => simp [Except.mapError]
  | ok a => simp [Except.mapError]

/-- A reader that ends well on each member gives the members' values in order. -/
theorem mapM_eq_ok {f : α → Except ε β} {xs : List α} {ys : List β} :
    xs.mapM f = .ok ys ↔ List.Forall₂ (fun x y => f x = .ok y) xs ys := by
  induction xs generalizing ys with
  | nil =>
    have hnil : ([] : List α).mapM f = .ok [] := rfl
    rw [hnil, List.forall₂_nil_left_iff]
    exact ⟨fun h => (Except.ok.inj h).symm, fun h => by rw [h]⟩
  | cons x rest ih =>
    rw [List.mapM_cons, bind_eq_ok, List.forall₂_cons_left_iff]
    constructor
    · rintro ⟨y, hy, h⟩
      obtain ⟨tail, htail, h⟩ := bind_eq_ok.1 h
      exact ⟨y, tail, hy, ih.1 htail, (Except.ok.inj h).symm⟩
    · rintro ⟨y, tail, hy, htail, rfl⟩
      exact ⟨y, hy, bind_eq_ok.2 ⟨tail, ih.2 htail, rfl⟩⟩

/-- Of two lists related member by member, each member of the second has one of the first. -/
theorem exists_of_forall₂ {r : α → β → Prop} {xs : List α} {ys : List β}
    (h : List.Forall₂ r xs ys) {y : β} (hy : y ∈ ys) : ∃ x ∈ xs, r x y := by
  induction h with
  | nil => cases hy
  | cons hxy _ ih =>
    rcases List.mem_cons.1 hy with rfl | hy
    · exact ⟨_, List.mem_cons_self, hxy⟩
    · obtain ⟨x, hx, hxy⟩ := ih hy
      exact ⟨x, List.mem_cons_of_mem _ hx, hxy⟩

/-- Each value comes from a member. -/
theorem exists_of_mapM_eq_ok {f : α → Except ε β} {xs : List α} {ys : List β}
    (h : xs.mapM f = .ok ys) {y : β} (hy : y ∈ ys) : ∃ x ∈ xs, f x = .ok y :=
  exists_of_forall₂ (mapM_eq_ok.1 h) hy

/-- A reader ends well on a list when it does on each member. -/
theorem exists_mapM_eq_ok {f : α → Except ε β} {xs : List α} :
    (∃ ys, xs.mapM f = .ok ys) ↔ ∀ x ∈ xs, ∃ y, f x = .ok y := by
  induction xs with
  | nil => exact iff_of_true ⟨[], rfl⟩ (by simp)
  | cons x rest ih =>
    rw [List.forall_mem_cons, ← ih, List.mapM_cons]
    constructor
    · rintro ⟨ys, h⟩
      obtain ⟨y, hy, h⟩ := bind_eq_ok.1 h
      obtain ⟨tail, htail, -⟩ := bind_eq_ok.1 h
      exact ⟨⟨y, hy⟩, tail, htail⟩
    · rintro ⟨⟨y, hy⟩, tail, htail⟩
      exact ⟨y :: tail, bind_eq_ok.2 ⟨y, hy, bind_eq_ok.2 ⟨tail, htail, rfl⟩⟩⟩

/-- A reader fails on a list with the fault of the first member on which it fails. -/
theorem mapM_eq_error {f : α → Except ε β} {xs : List α} {e : ε} :
    xs.mapM f = .error e ↔ ∃ before x after, xs = before ++ x :: after ∧
      (∀ b ∈ before, ∃ y, f b = .ok y) ∧ f x = .error e := by
  induction xs with
  | nil =>
    refine iff_of_false (by simp [pure, Except.pure]) ?_
    rintro ⟨before, x, after, h, -⟩
    exact List.append_ne_nil_of_right_ne_nil before (List.cons_ne_nil x after) h.symm
  | cons x rest ih =>
    rw [List.mapM_cons]
    cases hx : f x with
    | error first =>
      constructor
      · rintro ⟨⟩
        exact ⟨[], x, rest, rfl, by simp, hx⟩
      · rintro ⟨_ | ⟨b, before⟩, y, after, hsplit, hbefore, hy⟩
        · cases hsplit
          rw [hx] at hy
          cases hy
          rfl
        · cases hsplit
          obtain ⟨a, ha⟩ := hbefore x List.mem_cons_self
          rw [hx] at ha
          cases ha
    | ok a =>
      have hrest : (rest.mapM f >>= fun as => pure (a :: as)) = .error e
          ↔ rest.mapM f = .error e := by
        cases rest.mapM f <;> simp [bind, Except.bind, pure, Except.pure]
      rw [ok_bind, hrest, ih]
      constructor
      · rintro ⟨before, y, after, rfl, hbefore, hy⟩
        exact ⟨x :: before, y, after, rfl, List.forall_mem_cons.2 ⟨⟨a, hx⟩, hbefore⟩, hy⟩
      · rintro ⟨_ | ⟨b, before⟩, y, after, hsplit, hbefore, hy⟩
        · cases hsplit
          rw [hx] at hy
          cases hy
        · cases hsplit
          exact ⟨before, y, after, rfl, fun b hb => hbefore b (List.mem_cons_of_mem _ hb), hy⟩

/-- Readers that agree on the members of a list read the same from it. -/
theorem mapM_congr {f g : α → Except ε β} {xs : List α} (h : ∀ x ∈ xs, f x = g x) :
    xs.mapM f = xs.mapM g := by
  induction xs with
  | nil => rfl
  | cons x rest ih =>
    rw [List.mapM_cons, List.mapM_cons, h x List.mem_cons_self,
      ih fun y hy => h y (List.mem_cons_of_mem _ hy)]

/-- Readers that change what other readers give change the list of it. -/
theorem mapM_of_map {γ : Type} {f : α → Except ε γ} {g : α → Except ε β} {k : β → γ}
    {xs : List α} (h : ∀ x ∈ xs, f x = (g x).map k) : xs.mapM f = (xs.mapM g).map (List.map k) := by
  rw [mapM_congr h]
  induction xs with
  | nil => rfl
  | cons x rest ih =>
    rw [List.mapM_cons, List.mapM_cons, ih fun y hy => h y (List.mem_cons_of_mem _ hy)]
    cases g x with
    | error e => rfl
    | ok b => cases rest.mapM g <;> rfl

/-- Lists that agree member by member under two functions have the same images. -/
theorem map_eq_of_forall₂ {γ : Type} {f : β → γ} {g : α → γ} {xs : List α} {ys : List β}
    (h : List.Forall₂ (fun x y => f y = g x) xs ys) : ys.map f = xs.map g := by
  induction h with
  | nil => rfl
  | cons hxy _ ih => rw [List.map_cons, List.map_cons, hxy, ih]

/-- Members that are images of related ones are the images of a related list. -/
theorem exists_forall₂_map {γ : Type} {r : α → γ → Prop} {f : γ → β} {xs : List α} {ys : List β} :
    List.Forall₂ (fun x y => ∃ z, r x z ∧ f z = y) xs ys ↔
      ∃ zs, List.Forall₂ r xs zs ∧ zs.map f = ys := by
  constructor
  · intro h
    induction h with
    | nil => exact ⟨[], .nil, rfl⟩
    | cons hxy _ ih =>
      obtain ⟨z, hz, rfl⟩ := hxy
      obtain ⟨zs, hzs, rfl⟩ := ih
      exact ⟨z :: zs, .cons hz hzs, rfl⟩
  · rintro ⟨zs, hzs, rfl⟩
    exact List.forall₂_map_right_iff.2 (hzs.imp fun _ z hz => ⟨z, hz, rfl⟩)

/-- Pairs are related as soon as their first and their second parts are. -/
theorem forall₂_of_maps {α' β' : Type} {r : α → α' → Prop} {s : β → β' → Prop}
    {xs : List (α × β)} {ys : List (α' × β')}
    (hfirst : List.Forall₂ r (xs.map (·.1)) (ys.map (·.1)))
    (hsecond : List.Forall₂ s (xs.map (·.2)) (ys.map (·.2))) :
    List.Forall₂ (fun x y => r x.1 y.1 ∧ s x.2 y.2) xs ys := by
  induction xs generalizing ys with
  | nil =>
    cases ys with
    | nil => exact .nil
    | cons y rest => cases hfirst
  | cons x rest ih =>
    cases ys with
    | nil => cases hfirst
    | cons y others =>
      obtain ⟨hx, hrest⟩ := List.forall₂_cons.1 hfirst
      obtain ⟨hx', hrest'⟩ := List.forall₂_cons.1 hsecond
      exact .cons ⟨hx, hx'⟩ (ih hrest hrest')

section Forall

variable {p : α → Prop} {q : β → Prop} {xs : List α} {ys : List β}

/-- Where members agree one by one, so do statements about all of them. -/
theorem forall_mem_iff_of_forall₂ (h : List.Forall₂ (fun x y => q y ↔ p x) xs ys) :
    (∀ y ∈ ys, q y) ↔ ∀ x ∈ xs, p x := by
  induction h with
  | nil => simp
  | cons hxy _ ih => rw [List.forall_mem_cons, List.forall_mem_cons, hxy, ih]

/-- Whether some member of a list has a property can be asked of the other list. -/
theorem exists_mem_iff_of_forall₂ (h : List.Forall₂ (fun x y => q y ↔ p x) xs ys) :
    (∃ y ∈ ys, q y) ↔ ∃ x ∈ xs, p x := by
  induction h with
  | nil => simp
  | cons hxy _ ih => rw [List.exists_mem_cons_iff, List.exists_mem_cons_iff, hxy, ih]

end Forall

/-! ## Two results -/

section Agree

variable {α' β' : Type} {r : α → α' → Prop} {s : β → β' → Prop}

/-- Two results with values that are related, or with the same fault. -/
inductive Agree (r : α → α' → Prop) : Except ε α → Except ε α' → Prop where
  | error (e : ε) : Agree r (.error e) (.error e)
  | ok {a : α} {b : α'} (h : r a b) : Agree r (.ok a) (.ok b)

theorem Agree.refl (x : Except ε α) : Agree Eq x x := by
  cases x with
  | error e => exact .error e
  | ok a => exact .ok rfl

theorem Agree.map {x : Except ε α} {y : Except ε α'} (h : Agree r x y) {f : α → β} {g : α' → β'}
    (hmap : ∀ a b, r a b → s (f a) (g b)) : Agree s (x.map f) (y.map g) := by
  cases h with
  | error e => exact .error e
  | ok h => exact .ok (hmap _ _ h)

/-- Values of the two results may be related further by what the results are. -/
theorem Agree.imp {r' : α → α' → Prop} {x : Except ε α} {y : Except ε α'} (h : Agree r x y)
    (himp : ∀ a b, x = .ok a → y = .ok b → r a b → r' a b) : Agree r' x y := by
  cases h with
  | error e => exact .error e
  | ok h => exact .ok (himp _ _ rfl rfl h)

theorem Agree.mapError {ε' : Type} {x : Except ε α} {y : Except ε α'} (h : Agree r x y)
    (f : ε → ε') : Agree r (x.mapError f) (y.mapError f) := by
  cases h with
  | error e => exact .error (f e)
  | ok h => exact .ok h

/-- Two results agree step by step. -/
theorem Agree.bind {x : Except ε α} {y : Except ε α'} (h : Agree r x y) {f : α → Except ε β}
    {g : α' → Except ε β'} (hbind : ∀ a b, r a b → Agree s (f a) (g b)) :
    Agree s (x >>= f) (y >>= g) := by
  cases h with
  | error e => exact .error e
  | ok h => exact hbind _ _ h

/-- A step that is the same on both sides. -/
theorem Agree.bind_same (x : Except ε α) {f : α → Except ε β} {g : α → Except ε β'}
    (hbind : ∀ a, Agree s (f a) (g a)) : Agree s (x >>= f) (x >>= g) := by
  cases x with
  | error e => exact .error e
  | ok a => exact hbind a

/-- Readers that agree member by member agree on lists. -/
theorem Agree.mapM {xs : List α} {ys : List α'} (h : List.Forall₂ r xs ys) {f : α → Except ε β}
    {g : α' → Except ε β'} (hread : ∀ x y, r x y → Agree s (f x) (g y)) :
    Agree (List.Forall₂ s) (xs.mapM f) (ys.mapM g) := by
  induction h with
  | nil => exact .ok .nil
  | cons hxy _ ih =>
    rw [List.mapM_cons, List.mapM_cons]
    exact (hread _ _ hxy).bind fun _ _ hfirst => ih.bind fun _ _ hrest => .ok (.cons hfirst hrest)

end Agree

/-! ## Values that carry over -/

section Carries

variable {ε' α' β' : Type} {r : α → α' → Prop} {s : β → β' → Prop}

/-- Where the first result is a value, so is the second, and the two are related. -/
def Carries (r : α → α' → Prop) (x : Except ε α) (y : Except ε' α') : Prop :=
  ∀ a, x = .ok a → ∃ b, y = .ok b ∧ r a b

theorem carries_ok {a : α} {b : α'} (h : r a b) :
    Carries r (.ok a : Except ε α) (.ok b : Except ε' α') := by
  rintro _ ⟨⟩
  exact ⟨b, rfl, h⟩

theorem carries_error (e : ε) (y : Except ε' α') : Carries r (.error e : Except ε α) y := by
  rintro _ ⟨⟩

theorem Carries.map {x : Except ε α} {y : Except ε' α'} (h : Carries r x y) {f : α → β}
    {g : α' → β'} (hmap : ∀ a b, r a b → s (f a) (g b)) : Carries s (x.map f) (y.map g) := by
  intro c hc
  obtain ⟨a, rfl, rfl⟩ := map_eq_ok.1 hc
  obtain ⟨b, rfl, hab⟩ := h a rfl
  exact ⟨g b, rfl, hmap a b hab⟩

theorem Carries.bind {x : Except ε α} {y : Except ε' α'} (h : Carries r x y) {f : α → Except ε β}
    {g : α' → Except ε' β'} (hbind : ∀ a b, r a b → Carries s (f a) (g b)) :
    Carries s (x >>= f) (y >>= g) := by
  intro c hc
  obtain ⟨a, rfl, hc⟩ := bind_eq_ok.1 hc
  obtain ⟨b, rfl, hab⟩ := h a rfl
  exact hbind a b hab c hc

/-- A value that is carried over to itself is related to itself. -/
theorem Carries.self {r : α → α → Prop} {x : Except ε α} (h : Carries r x x) {a : α}
    (ha : x = .ok a) : r a a := by
  obtain ⟨b, hb, hab⟩ := h a ha
  rw [ha] at hb
  cases hb
  exact hab

/-- A step that is the same on both sides. -/
theorem Carries.bind_same (x : Except ε α) {f : α → Except ε β} {g : α → Except ε β'}
    (hbind : ∀ a, Carries s (f a) (g a)) : Carries s (x >>= f) (x >>= g) := by
  cases x with
  | error e => exact carries_error e _
  | ok a => exact hbind a

/-- How faults are described does not matter to the values carried over. -/
theorem Carries.mapError {x : Except ε α} {y : Except ε' α'} (h : Carries r x y) {δ δ' : Type}
    (f : ε → δ) (g : ε' → δ') : Carries r (x.mapError f) (y.mapError g) := by
  intro a ha
  obtain ⟨b, hb, hab⟩ := h a (mapError_eq_ok.1 ha)
  exact ⟨b, mapError_eq_ok.2 hb, hab⟩

/-- Readers whose values carry over member by member carry lists over. -/
theorem Carries.mapM {t : α → α' → Prop} {xs : List α} {ys : List α'} (h : List.Forall₂ t xs ys)
    {f : α → Except ε β} {g : α' → Except ε' β'} (hread : ∀ x y, t x y → Carries s (f x) (g y)) :
    Carries (List.Forall₂ s) (xs.mapM f) (ys.mapM g) := by
  induction h with
  | nil => exact carries_ok .nil
  | cons hxy _ ih =>
    rw [List.mapM_cons, List.mapM_cons]
    exact (hread _ _ hxy).bind fun _ _ hfirst =>
      ih.bind fun _ _ hrest => carries_ok (.cons hfirst hrest)

/-- Values that were read from members carry over to the members of another list. -/
theorem exists_mapM_of_forall₂ {t : α → α' → Prop} {xs : List α} {as : List β} {ys : List α'}
    {g : α' → Except ε' β'}
    (h : List.Forall₂ (fun x a => ∀ y, t x y → ∃ b, g y = .ok b ∧ s a b) xs as)
    (ht : List.Forall₂ t xs ys) : ∃ bs, ys.mapM g = .ok bs ∧ List.Forall₂ s as bs := by
  induction h generalizing ys with
  | nil =>
    cases ht
    exact ⟨[], rfl, .nil⟩
  | cons hfirst _ ih =>
    cases ht with
    | cons hxy hrest =>
    obtain ⟨b, hb, hab⟩ := hfirst _ hxy
    obtain ⟨bs, hbs, habs⟩ := ih hrest
    rw [List.mapM_cons, hb, ok_bind, hbs]
    exact ⟨b :: bs, rfl, .cons hab habs⟩

end Carries

end DocumentQuery
