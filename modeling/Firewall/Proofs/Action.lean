/-
# What sequences of actions do

A sequence of actions succeeds exactly when every part of it does, and fails at the first part that
fails.  A view of the world that every part leaves alone is left alone by the whole, also when the
sequence stops half-way: this carries the frame conditions of evaluation.  And two sequences whose
parts cannot be told apart in related worlds cannot be told apart either: this carries statements
about two runs.

* `Action.Closed` : properties that go over from the parts of a sequence to the whole;
* `Action.Gives`, `Action.Raises` : having a result, or an error, with some property, if any;
* `Action.Keeps` : leaving a view of the world alone;
* `Action.Leads` : taking the world along a relation, step by step;
* `Action.Alike` : giving the same result in related worlds, and leaving them related;
* `Action.AlikeUpTo` : the same, with results that look the same;
* `Action.Steady`, `Yields` : having one and the same result in all worlds of a kind;
* `Action.keeps_iff_alike` : the first is a case of the second;
* `Action.perform_bind_ok_iff`, `perform_bind_error_iff` : a sequence of two actions;
* `Action.perform_mapM_ok_iff`, `perform_mapM_error_iff` : an action for every entry of a list.
-/
import Mathlib.Data.List.Forall2
import Firewall.Action

namespace Firewall

/-- An entry of the second of two related lists is related to one of the first. -/
theorem exists_of_forall₂_of_mem {α β : Type} {R : α → β → Prop} {xs : List α} {ys : List β}
    (h : List.Forall₂ R xs ys) {y : β} (hy : y ∈ ys) : ∃ x ∈ xs, R x y := by
  induction h with
  | nil => cases hy
  | @cons x y' xs ys hxy _ ih =>
    rcases List.mem_cons.1 hy with rfl | hy
    · exact ⟨x, List.mem_cons_self, hxy⟩
    · obtain ⟨x', hx', hr⟩ := ih hy
      exact ⟨x', List.mem_cons_of_mem x hx', hr⟩

/-- Lists that are related by way of a third. -/
theorem forall₂_trans {α β γ : Type} {R : α → β → Prop} {S : β → γ → Prop} {T : α → γ → Prop}
    (hT : ∀ x y z, R x y → S y z → T x z) {xs : List α} {ys : List β} {zs : List γ}
    (h : List.Forall₂ R xs ys) (h' : List.Forall₂ S ys zs) : List.Forall₂ T xs zs := by
  induction h generalizing zs with
  | nil =>
    cases h'
    exact .nil
  | cons hxy _ ih =>
    cases h' with
    | cons hyz h' => exact .cons (hT _ _ _ hxy hyz) (ih h')

namespace Action

variable {σ τ α β γ : Type}

/-! ## Two actions -/

theorem perform_bind_of_ok {a : Action σ α} {s t : σ} {x : α} (h : a.perform s = (.ok x, t))
    (f : α → Action σ β) : (a >>= f).perform s = (f x).perform t := by
  rw [perform_bind, h]

theorem perform_bind_of_error {a : Action σ α} {s t : σ} {e : Error}
    (h : a.perform s = (.error e, t)) (f : α → Action σ β) :
    (a >>= f).perform s = (.error e, t) := by
  rw [perform_bind, h]

/-- A sequence of two actions succeeds when both do. -/
theorem perform_bind_ok_iff {a : Action σ α} {f : α → Action σ β} {s u : σ} {y : β} :
    (a >>= f).perform s = (.ok y, u) ↔
      ∃ x t, a.perform s = (.ok x, t) ∧ (f x).perform t = (.ok y, u) := by
  rw [perform_bind]
  rcases a.perform s with ⟨e | x, t⟩
  · simp
  · constructor
    · intro h
      exact ⟨x, t, rfl, h⟩
    · rintro ⟨x', t', hx, h⟩
      cases hx
      exact h

/-- A sequence of two actions fails when the first fails, or when the second does. -/
theorem perform_bind_error_iff {a : Action σ α} {f : α → Action σ β} {s u : σ} {e : Error} :
    (a >>= f).perform s = (.error e, u) ↔
      a.perform s = (.error e, u) ∨
        ∃ x t, a.perform s = (.ok x, t) ∧ (f x).perform t = (.error e, u) := by
  rw [perform_bind]
  rcases a.perform s with ⟨e' | x, t⟩
  · simp
  · constructor
    · intro h
      exact Or.inr ⟨x, t, rfl, h⟩
    · rintro (h | ⟨x', t', hx, h⟩)
      · cases h
      · cases hx
        exact h

/-- Telling an error in another way makes no difference to success. -/
theorem perform_mapError_ok_iff {a : Action σ α} {g : Error → Error} {s t : σ} {x : α} :
    (a.mapError g).perform s = (.ok x, t) ↔ a.perform s = (.ok x, t) := by
  rw [perform_mapError]
  rcases a.perform s with ⟨e | y, u⟩ <;> simp

theorem perform_mapError_error_iff {a : Action σ α} {g : Error → Error} {s t : σ} {e : Error} :
    (a.mapError g).perform s = (.error e, t) ↔
      ∃ cause, a.perform s = (.error cause, t) ∧ g cause = e := by
  rw [perform_mapError]
  rcases a.perform s with ⟨e' | y, u⟩ <;> simp [and_comm]

/-- An action of whose result something is seen has succeeded. -/
theorem exists_perform_of_seen {a : Action σ α} {s : σ} {look : α → β} {y : β}
    (h : (a.perform s).1.toOption.map look = some y) :
    ∃ x t, a.perform s = (.ok x, t) ∧ look x = y := by
  rcases hs : a.perform s with ⟨e | x, t⟩
  · rw [hs] at h
    cases h
  · rw [hs] at h
    exact ⟨x, t, rfl, Option.some.inj h⟩

/-- A step that cannot fail. -/
theorem perform_liftM (a : StateM σ α) (s : σ) :
    (liftM a : Action σ α).perform s = (.ok (a s).1, (a s).2) := rfl

/-- What is made of the result of an action. -/
theorem perform_map (f : α → β) (a : Action σ α) (s : σ) :
    (f <$> a).perform s = ((a.perform s).1.map f, (a.perform s).2) := by
  rw [map_eq_pure_bind, perform_bind]
  rcases a.perform s with ⟨e | x, t⟩ <;> rfl

/-! ## An action for every entry -/

/-- Actions for the entries of two lists come to the same if they do for one entry after the
other. -/
theorem map_mapM_of_forall₂ {δ : Type} {look : β → γ} {f : α → Action σ β} {g : δ → Action σ γ}
    {xs : List α} {ys : List δ} (h : List.Forall₂ (fun x y => look <$> f x = g y) xs ys) :
    List.map look <$> xs.mapM f = ys.mapM g := by
  induction h with
  | nil => rfl
  | @cons x y xs ys hxy _ ih =>
    rw [List.mapM_cons, List.mapM_cons, ← hxy, ← ih]
    simp only [map_bind, bind_map_left, map_pure, List.map_cons]

/-- **A list of actions succeeds** when the first does and the others do after it. -/
theorem perform_mapM_ok_iff {f : α → Action σ β} {x : α} {xs : List α} {ys : List β} {s u : σ} :
    ((x :: xs).mapM f).perform s = (.ok ys, u) ↔
      ∃ y t ys', (f x).perform s = (.ok y, t) ∧ (xs.mapM f).perform t = (.ok ys', u) ∧
        ys = y :: ys' := by
  rw [List.mapM_cons, perform_bind_ok_iff]
  constructor
  · rintro ⟨y, t, hy, h⟩
    obtain ⟨ys', t', hys, h⟩ := perform_bind_ok_iff.1 h
    cases h
    exact ⟨y, t, ys', hy, hys, rfl⟩
  · rintro ⟨y, t, ys', hy, hys, rfl⟩
    exact ⟨y, t, hy, perform_bind_ok_iff.2 ⟨ys', u, hys, rfl⟩⟩

/-- A list of actions fails when the first does, or when the others do after it. -/
theorem perform_mapM_cons_error_iff {f : α → Action σ β} {x : α} {xs : List α} {s u : σ}
    {e : Error} :
    ((x :: xs).mapM f).perform s = (.error e, u) ↔
      (f x).perform s = (.error e, u) ∨
        ∃ y t, (f x).perform s = (.ok y, t) ∧ (xs.mapM f).perform t = (.error e, u) := by
  rw [List.mapM_cons, perform_bind_error_iff]
  constructor
  · rintro (h | ⟨y, t, hy, h⟩)
    · exact .inl h
    · rcases perform_bind_error_iff.1 h with h | ⟨ys, t', -, h⟩
      · exact .inr ⟨y, t, hy, h⟩
      · cases h
  · rintro (h | ⟨y, t, hy, h⟩)
    · exact .inl h
    · exact .inr ⟨y, t, hy, perform_bind_of_error h _⟩

/-- **A list of actions fails at one entry**: those before it succeeded, and those after it were not
started. -/
theorem perform_mapM_error {f : α → Action σ β} {xs : List α} {s u : σ} {e : Error}
    (h : (xs.mapM f).perform s = (.error e, u)) :
    ∃ pre x post ys t, xs = pre ++ x :: post ∧ (pre.mapM f).perform s = (.ok ys, t) ∧
      (f x).perform t = (.error e, u) := by
  induction xs generalizing s with
  | nil => cases h
  | cons x xs ih =>
    rcases perform_mapM_cons_error_iff.1 h with h | ⟨y, t, hy, h⟩
    · exact ⟨[], x, xs, [], s, rfl, rfl, h⟩
    · obtain ⟨pre, x', post, ys, t', rfl, hpre, hx'⟩ := ih h
      exact ⟨x :: pre, x', post, y :: ys, t', rfl,
        perform_mapM_ok_iff.2 ⟨y, t, ys, hy, hpre, rfl⟩, hx'⟩

/-- A list of actions fails as soon as its first entries do. -/
theorem perform_mapM_append_of_error {f : α → Action σ β} {pre : List α} {s u : σ} {e : Error}
    (h : (pre.mapM f).perform s = (.error e, u)) (post : List α) :
    ((pre ++ post).mapM f).perform s = (.error e, u) := by
  rw [List.mapM_append]
  exact perform_bind_of_error h _

/-- **A list of actions fails exactly if one of them does** after all before it succeeded. -/
theorem perform_mapM_error_iff {f : α → Action σ β} {xs : List α} {s u : σ} {e : Error} :
    (xs.mapM f).perform s = (.error e, u) ↔
      ∃ pre x post ys t, xs = pre ++ x :: post ∧ (pre.mapM f).perform s = (.ok ys, t) ∧
        (f x).perform t = (.error e, u) := by
  constructor
  · exact perform_mapM_error
  · rintro ⟨pre, x, post, ys, t, rfl, hpre, hx⟩
    rw [List.mapM_append, perform_bind_of_ok hpre, List.mapM_cons]
    exact perform_bind_of_error (perform_bind_of_error hx _) _

/-- **What holds of an entry and its result holds of all entries and their results**, as long as the
world has a property that every entry keeps. -/
theorem forall₂_of_perform_mapM {R : α → β → Prop} {P : σ → Prop} {f : α → Action σ β}
    (hf : ∀ x y s t, P s → (f x).perform s = (.ok y, t) → R x y ∧ P t) {xs : List α}
    {ys : List β} {s t : σ} (hs : P s) (h : (xs.mapM f).perform s = (.ok ys, t)) :
    List.Forall₂ R xs ys := by
  induction xs generalizing ys s with
  | nil =>
    cases h
    exact .nil
  | cons x xs ih =>
    obtain ⟨y, u, ys', hy, hys, rfl⟩ := perform_mapM_ok_iff.1 h
    obtain ⟨hxy, hu⟩ := hf x y s u hs hy
    exact .cons hxy (ih hu hys)

/-! ## Properties of parts -/

/-- A property of actions, with results of any type, that doing nothing has and that a sequence has
if its parts do. -/
structure Closed (P : ∀ α : Type, Action σ α → Prop) : Prop where
  pure : ∀ {α : Type} (x : α), P α (pure x)
  bind : ∀ {α β : Type} {a : Action σ α} {f : α → Action σ β},
    P α a → (∀ x, P β (f x)) → P β (a >>= f)

/-- Such a property goes over from one action to a list of them. -/
theorem Closed.mapM {P : ∀ α : Type, Action σ α → Prop} (hP : Closed P) {f : α → Action σ β}
    (hf : ∀ x, P β (f x)) (xs : List α) : P (List β) (xs.mapM f) := by
  induction xs with
  | nil => exact hP.pure []
  | cons x xs ih =>
    rw [List.mapM_cons]
    exact hP.bind (hf x) fun y => hP.bind ih fun ys => hP.pure (y :: ys)

/-! ## Results -/

/-- Whenever the action succeeds, its result has a property. -/
def Gives (p : α → Prop) (a : Action σ α) : Prop := ∀ s x t, a.perform s = (.ok x, t) → p x

section Results

variable {p : α → Prop}

theorem gives_pure {x : α} (h : p x) : Gives p (pure x : Action σ α) := by
  rintro s _ _ ⟨⟩
  exact h

theorem gives_throw (e : Error) : Gives p (throw e : Action σ α) := by
  intro s x t h
  cases h

/-- The result of a sequence is that of its last part. -/
theorem gives_bind {a : Action σ β} {f : β → Action σ α} (hf : ∀ y, Gives p (f y)) :
    Gives p (a >>= f) := by
  intro s x u h
  obtain ⟨y, t, -, hx⟩ := perform_bind_ok_iff.1 h
  exact hf y t x u hx

/-- Whenever the action fails, its error has a property. -/
def Raises (q : Error → Prop) (a : Action σ α) : Prop := ∀ s e t, a.perform s = (.error e, t) → q e

variable {q : Error → Prop}

theorem raises_pure (x : α) : Raises q (pure x : Action σ α) := by
  intro s e t h
  cases h

/-- The error of a sequence is that of one of its parts. -/
theorem raises_bind {a : Action σ β} {f : β → Action σ α} (ha : Raises q a)
    (hf : ∀ y, Raises q (f y)) : Raises q (a >>= f) := by
  intro s e u h
  rcases perform_bind_error_iff.1 h with h | ⟨y, t, -, h⟩
  · exact ha s e u h
  · exact hf y t e u h

theorem closed_raises (q : Error → Prop) : Closed fun _ (a : Action σ _) => Raises q a where
  pure := raises_pure
  bind := raises_bind

end Results

/-! ## Frames -/

/-- The action leaves a view of the world alone, whether it succeeds or fails. -/
def Keeps (view : σ → γ) (a : Action σ α) : Prop := ∀ s, view (a.perform s).2 = view s

section Frames

variable {view : σ → γ}

theorem Keeps.of_perform {a : Action σ α} (h : Keeps view a) {s t : σ} {r : Except Error α}
    (hs : a.perform s = (r, t)) : view t = view s := by
  have := h s
  rwa [hs] at this

/-- What is seen of a view that is left alone is left alone. -/
theorem Keeps.comp {δ : Type} {a : Action σ α} (h : Keeps view a) (f : γ → δ) :
    Keeps (fun s => f (view s)) a := fun s => congrArg f (h s)

theorem keeps_pure (x : α) : Keeps view (pure x : Action σ α) := fun _ => rfl

theorem keeps_bind {a : Action σ α} {f : α → Action σ β} (ha : Keeps view a)
    (hf : ∀ x, Keeps view (f x)) : Keeps view (a >>= f) := by
  intro s
  rw [perform_bind]
  have hs := ha s
  rcases h : a.perform s with ⟨e | x, t⟩
  · rw [h] at hs
    exact hs
  · rw [h] at hs
    exact (hf x t).trans hs

theorem closed_keeps (view : σ → γ) : Closed fun _ (a : Action σ _) => Keeps view a where
  pure := keeps_pure
  bind := keeps_bind

theorem keeps_mapM {f : α → Action σ β} (hf : ∀ x, Keeps view (f x)) (xs : List α) :
    Keeps view (xs.mapM f) := (closed_keeps view).mapM hf xs

end Frames

/-! ## Along a relation -/

/-- The action takes the world along a relation, whether it succeeds or fails. -/
def Leads (R : σ → σ → Prop) (a : Action σ α) : Prop := ∀ s, R s (a.perform s).2

section Steps

variable {R : σ → σ → Prop}

theorem Leads.of_keeps {view : σ → γ} {a : Action σ α} (h : Keeps view a)
    (hR : ∀ s t, view t = view s → R s t) : Leads R a := fun s => hR s _ (h s)

theorem leads_pure (hrefl : ∀ s, R s s) (x : α) : Leads R (pure x : Action σ α) :=
  fun s => hrefl s

/-- A sequence goes along a transitive relation if its parts do, the second with any result that the
first can have. -/
theorem leads_bind_of_perform (htrans : ∀ s t u, R s t → R t u → R s u) {a : Action σ α}
    {f : α → Action σ β} (ha : Leads R a)
    (hf : ∀ x s t, a.perform s = (.ok x, t) → R t ((f x).perform t).2) : Leads R (a >>= f) := by
  intro s
  rw [perform_bind]
  have hs := ha s
  rcases h : a.perform s with ⟨e | x, t⟩
  · rw [h] at hs
    exact hs
  · rw [h] at hs
    exact htrans s t _ hs (hf x s t h)

theorem leads_bind (htrans : ∀ s t u, R s t → R t u → R s u) {a : Action σ α}
    {f : α → Action σ β} (ha : Leads R a) (hf : ∀ x, Leads R (f x)) : Leads R (a >>= f) :=
  leads_bind_of_perform htrans ha fun x _ t _ => hf x t

theorem leads_mapM (hrefl : ∀ s, R s s) (htrans : ∀ s t u, R s t → R t u → R s u)
    {f : α → Action σ β} {xs : List α} (hf : ∀ x ∈ xs, Leads R (f x)) :
    Leads R (xs.mapM f) := by
  induction xs with
  | nil => exact leads_pure hrefl []
  | cons x xs ih =>
    rw [List.mapM_cons]
    have hxs := ih fun y hy => hf y (List.mem_cons_of_mem x hy)
    exact leads_bind htrans (hf x List.mem_cons_self) fun y =>
      leads_bind htrans hxs fun ys => leads_pure hrefl _

end Steps

/-! ## Two runs -/

/-- In related worlds two actions give results that look the same, or fail in the same way, and the
worlds they leave are related again. -/
def AlikeUpTo (look : α → γ) (R : σ → τ → Prop) (a : Action σ α) (b : Action τ α) : Prop :=
  ∀ s t, R s t → (a.perform s).1.map look = (b.perform t).1.map look ∧
    R (a.perform s).2 (b.perform t).2

/-- In related worlds two actions give the same result, or fail in the same way, and the worlds they
leave are related again. -/
def Alike (R : σ → τ → Prop) (a : Action σ α) (b : Action τ α) : Prop :=
  ∀ s t, R s t → (a.perform s).1 = (b.perform t).1 ∧ R (a.perform s).2 (b.perform t).2

section TwoRuns

variable {δ : Type} {R : σ → τ → Prop} {look : α → γ} {look' : β → δ}

theorem alike_iff_alikeUpTo {a : Action σ α} {b : Action τ α} :
    Alike R a b ↔ AlikeUpTo id R a b := by
  unfold Alike AlikeUpTo
  rw [Except.map_id]
  rfl

/-- The same results look the same. -/
theorem Alike.upTo {a : Action σ α} {b : Action τ α} (h : Alike R a b) (look : α → γ) :
    AlikeUpTo look R a b := fun s t hst =>
  ⟨congrArg (Except.map look) (h s t hst).1, (h s t hst).2⟩

theorem alikeUpTo_pure {x y : α} (h : look x = look y) : AlikeUpTo look R (pure x) (pure y) :=
  fun _ _ hst => ⟨congrArg Except.ok h, hst⟩

theorem alike_pure (x : α) : Alike R (pure x) (pure x) := fun _ _ h => ⟨rfl, h⟩

theorem alike_throw (e : Error) : Alike R (throw e : Action σ α) (throw e) := fun _ _ h => ⟨rfl, h⟩

/-- **Sequences are alike** if their first parts are, and then what is done with any results of the
first parts that look the same. -/
theorem alikeUpTo_bind_of_perform {a : Action σ α} {b : Action τ α} {f : α → Action σ β}
    {g : α → Action τ β} (hab : AlikeUpTo look R a b)
    (hfg : ∀ x y s t s', look x = look y → R s t → a.perform s = (.ok x, s') →
      AlikeUpTo look' R (f x) (g y)) :
    AlikeUpTo look' R (a >>= f) (b >>= g) := by
  intro s t hst
  obtain ⟨hresult, hR⟩ := hab s t hst
  rw [perform_bind, perform_bind]
  rcases ha : a.perform s with ⟨e | x, s'⟩ <;> rcases hb : b.perform t with ⟨e' | y, t'⟩ <;>
    rw [ha, hb] at hresult hR
  · cases hresult
    exact ⟨rfl, hR⟩
  · cases hresult
  · cases hresult
  · exact hfg x y s t s' (Except.ok.inj hresult) hst ha s' t' hR

theorem alikeUpTo_bind {a : Action σ α} {b : Action τ α} {f : α → Action σ β} {g : α → Action τ β}
    (hab : AlikeUpTo look R a b)
    (hfg : ∀ x y, look x = look y → AlikeUpTo look' R (f x) (g y)) :
    AlikeUpTo look' R (a >>= f) (b >>= g) :=
  alikeUpTo_bind_of_perform hab fun x y _ _ _ hxy _ _ => hfg x y hxy

/-- After alike first parts, the rest starts from one and the same result. -/
theorem Alike.bind_upTo {a : Action σ α} {b : Action τ α} {f : α → Action σ β}
    {g : α → Action τ β} (hab : Alike R a b) (hfg : ∀ x, AlikeUpTo look' R (f x) (g x)) :
    AlikeUpTo look' R (a >>= f) (b >>= g) := by
  refine alikeUpTo_bind (alike_iff_alikeUpTo.1 hab) ?_
  rintro x _ rfl
  exact hfg x

/-- After first parts whose results look the same, the rest need be alike only for such results. -/
theorem AlikeUpTo.bind_alike {a : Action σ α} {b : Action τ α} {f : α → Action σ β}
    {g : α → Action τ β} (hab : AlikeUpTo look R a b)
    (hfg : ∀ x y, look x = look y → Alike R (f x) (g y)) : Alike R (a >>= f) (b >>= g) :=
  alike_iff_alikeUpTo.2 (alikeUpTo_bind hab fun x y hxy => alike_iff_alikeUpTo.1 (hfg x y hxy))

theorem alike_bind_of_perform {a : Action σ α} {b : Action τ α} {f : α → Action σ β}
    {g : α → Action τ β} (hab : Alike R a b)
    (hfg : ∀ x s t s', R s t → a.perform s = (.ok x, s') → Alike R (f x) (g x)) :
    Alike R (a >>= f) (b >>= g) := by
  rw [alike_iff_alikeUpTo]
  refine alikeUpTo_bind_of_perform (alike_iff_alikeUpTo.1 hab) ?_
  rintro x _ s t s' rfl hst ha
  exact alike_iff_alikeUpTo.1 (hfg x s t s' hst ha)

theorem alike_bind {a : Action σ α} {b : Action τ α} {f : α → Action σ β} {g : α → Action τ β}
    (hab : Alike R a b) (hfg : ∀ x, Alike R (f x) (g x)) : Alike R (a >>= f) (b >>= g) :=
  alike_bind_of_perform hab fun x _ _ _ _ _ => hfg x

/-- Actions for the entries of two lists that look the same. -/
theorem alikeUpTo_mapM {f : α → Action σ β} {g : α → Action τ β} {xs ys : List α}
    (hxy : xs.map look = ys.map look)
    (h : ∀ x ∈ xs, ∀ y ∈ ys, look x = look y → AlikeUpTo look' R (f x) (g y)) :
    AlikeUpTo (List.map look') R (xs.mapM f) (ys.mapM g) := by
  induction xs generalizing ys with
  | nil =>
    rw [List.map_nil, eq_comm, List.map_eq_nil_iff] at hxy
    rw [hxy]
    exact alikeUpTo_pure rfl
  | cons x xs ih =>
    obtain ⟨y, ys, rfl, hhead, htail⟩ := List.map_eq_cons_iff.1 hxy.symm
    rw [List.mapM_cons, List.mapM_cons]
    refine alikeUpTo_bind (h x List.mem_cons_self y List.mem_cons_self hhead.symm) ?_
    intro u v huv
    refine alikeUpTo_bind (ih htail.symm fun x' hx' y' hy' =>
      h x' (List.mem_cons_of_mem x hx') y' (List.mem_cons_of_mem y hy')) ?_
    intro us vs husvs
    refine alikeUpTo_pure ?_
    rw [List.map_cons, List.map_cons, huv, husvs]

theorem alike_mapM {f : α → Action σ β} {g : α → Action τ β} {xs : List α}
    (h : ∀ x ∈ xs, Alike R (f x) (g x)) : Alike R (xs.mapM f) (xs.mapM g) := by
  have hmap : AlikeUpTo (List.map id) R (xs.mapM f) (xs.mapM g) := by
    refine alikeUpTo_mapM (rfl : xs.map id = xs.map id) ?_
    rintro x hx _ - rfl
    exact alike_iff_alikeUpTo.1 (h x hx)
  rw [List.map_id_fun] at hmap
  exact alike_iff_alikeUpTo.2 hmap

theorem alikeUpTo_mapError {a : Action σ α} {b : Action τ α} (f : Error → Error)
    (h : AlikeUpTo look R a b) : AlikeUpTo look R (a.mapError f) (b.mapError f) := by
  intro s t hst
  obtain ⟨hresult, hR⟩ := h s t hst
  rw [perform_mapError, perform_mapError]
  rcases ha : a.perform s with ⟨e | x, s'⟩ <;> rcases hb : b.perform t with ⟨e' | y, t'⟩ <;>
    rw [ha, hb] at hresult hR
  · cases hresult
    exact ⟨rfl, hR⟩
  · cases hresult
  · cases hresult
  · exact ⟨hresult, hR⟩

theorem alike_mapError {a : Action σ α} {b : Action τ α} (f : Error → Error) (h : Alike R a b) :
    Alike R (a.mapError f) (b.mapError f) :=
  alike_iff_alikeUpTo.2 (alikeUpTo_mapError f (alike_iff_alikeUpTo.1 h))

end TwoRuns

/-- In all worlds of a kind the action has the same result, and it leaves a world of that kind. -/
def Steady (P : σ → Prop) (a : Action σ α) : Prop := Alike (fun s t => P s ∧ P t) a a

section Steady

variable {P : σ → Prop}

theorem Steady.world {a : Action σ α} (h : Steady P a) {s t : σ} {r : Except Error α} (hs : P s)
    (hr : a.perform s = (r, t)) : P t := by
  have ht := (h s s ⟨hs, hs⟩).2.1
  rwa [hr] at ht

/-- What a steady action comes to once, it comes to in every world of the kind. -/
theorem Steady.exists_perform {a : Action σ α} (h : Steady P a) {s t u : σ}
    {r : Except Error α} (hs : P s) (hr : a.perform s = (r, t)) (hu : P u) :
    ∃ v, a.perform u = (r, v) ∧ P v := by
  obtain ⟨hresult, -, hv⟩ := h s u ⟨hs, hu⟩
  rw [hr] at hresult
  exact ⟨(a.perform u).2, Prod.ext hresult.symm rfl, hv⟩

/-- In all worlds of a kind the action succeeds with one result, and it leaves a world of that
kind. -/
def Yields (P : σ → Prop) (a : Action σ α) (x : α) : Prop :=
  ∀ s, P s → ∃ t, a.perform s = (.ok x, t) ∧ P t

/-- Steady actions that succeed one after the other succeed everywhere. -/
theorem forall₂_yields {f : α → Action σ β} (hf : ∀ x, Steady P (f x)) {xs : List α} {ys : List β}
    {s t : σ} (hs : P s) (h : (xs.mapM f).perform s = (.ok ys, t)) :
    List.Forall₂ (fun x y => Yields P (f x) y) xs ys := by
  refine forall₂_of_perform_mapM (fun x y s t hs hy => ⟨fun u hu => ?_, ?_⟩) hs h
  · exact (hf x).exists_perform hs hy hu
  · exact (hf x).world hs hy

/-- A list of actions succeeds everywhere if all of them do. -/
theorem yields_mapM {f : α → Action σ β} {xs : List α} {ys : List β}
    (h : List.Forall₂ (fun x y => Yields P (f x) y) xs ys) : Yields P (xs.mapM f) ys := by
  induction h with
  | nil => exact fun s hs => ⟨s, rfl, hs⟩
  | @cons x y xs ys hx _ ih =>
    intro s hs
    obtain ⟨t, hy, ht⟩ := hx s hs
    obtain ⟨u, hys, hu⟩ := ih t ht
    exact ⟨u, perform_mapM_ok_iff.2 ⟨y, t, ys, hy, hys, rfl⟩, hu⟩

end Steady

/-- An action keeps a view if it is like itself in one and the same world, whatever is seen
there. -/
theorem keeps_iff_alike {view : σ → γ} {a : Action σ α} :
    Keeps view a ↔ ∀ v, Alike (fun s t => s = t ∧ view s = v) a a := by
  constructor
  · rintro h v s _ ⟨rfl, hv⟩
    exact ⟨rfl, rfl, (h s).trans hv⟩
  · exact fun h s => (h (view s) s s ⟨rfl, rfl⟩).2.2

end Action

end Firewall
