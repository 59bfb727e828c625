/-
# Copies of a document

Stores that are open on one document hold a copy of it each.  If every call happened at once, it
would change the copy of its store and put the whole of it in the place of the document; and a store
that is opened again would have a copy of what is there then.

So between two openings a copy gets the writes of its own store, and no others.

* `Store.Copies`, `Copies.After`, `Copies.Path` : copies, and what events do to them;
* `Store.Copies.own` : the events of one store;
* `Store.Copies.Path.own`, `Path.alone` : what becomes of a copy, and of the document if nobody else
  writes.
-/
import Mathlib.Logic.Function.Basic
import Firewall.Proofs.Store.Acknowledged

namespace Firewall

namespace Store

variable {ι : Type} [DecidableEq ι]

/-- What a document holds, and what each handle on it holds between its calls. -/
structure Copies (ι : Type) where
  document : Snapshot
  copy : ι → Snapshot

namespace Copies

/-- The copies with the same contents in the document and for one handle. -/
def set (c : Copies ι) (i : ι) (s : Snapshot) : Copies ι := ⟨s, Function.update c.copy i s⟩

@[simp] theorem copy_set_self (c : Copies ι) (i : ι) (s : Snapshot) : (c.set i s).copy i = s :=
  Function.update_self ..

theorem copy_set_of_ne (c : Copies ι) {i j : ι} (h : j ≠ i) (s : Snapshot) :
    (c.set i s).copy j = c.copy j := Function.update_of_ne h ..

/-- Copies after one event, which happens at once: a call changes the copy of its handle, and puts
it in the place of the document; a handle that is opened again has a copy of the document. -/
inductive After (c : Copies ι) : ι × Event → Copies ι → Prop
  | call {i : ι} {op : Operation} {s : Snapshot} (h : (c.copy i).Written op s) :
      After c (i, .call op) (c.set i s)
  | reopen (i : ι) : After c (i, .reopen) (c.set i c.document)

/-- Copies after some events. -/
inductive Path : Copies ι → List (ι × Event) → Copies ι → Prop
  | nil (c : Copies ι) : Path c [] c
  | cons {c c' c'' : Copies ι} {e : ι × Event} {history : List (ι × Event)} (h : After c e c')
      (hrest : Path c' history c'') : Path c (e :: history) c''

/-- The events of one handle. -/
def own (i : ι) (history : List (ι × Event)) : List Event :=
  (history.filter fun e => e.1 = i).map Prod.snd

theorem own_cons_self (i : ι) (event : Event) (history : List (ι × Event)) :
    own i ((i, event) :: history) = event :: own i history := by
  simp [own]

theorem own_cons_of_ne {i j : ι} (h : j ≠ i) (event : Event) (history : List (ι × Event)) :
    own i ((j, event) :: history) = own i history := by
  simp [own, h]

variable {c c' : Copies ι} {i : ι} {history earlier later : List (ι × Event)}

/-- An event of another handle leaves a copy alone. -/
theorem After.copy_eq {e : ι × Event} (h : c.After e c') (hi : i ≠ e.1) :
    c'.copy i = c.copy i := by
  cases h with
  | call h => exact copy_set_of_ne c hi _
  | reopen j => exact copy_set_of_ne c hi _

/-- After an event of its own, a handle has what is in the document. -/
theorem After.copy_eq_document {event : Event} (h : c.After (i, event) c') :
    c'.copy i = c'.document := by
  cases h with
  | call h => exact copy_set_self c i _
  | reopen => exact copy_set_self c i _

theorem Path.exists_of_append (h : Path c (earlier ++ later) c') :
    ∃ c₀, Path c earlier c₀ ∧ Path c₀ later c' := by
  induction earlier generalizing c with
  | nil => exact ⟨c, .nil c, h⟩
  | cons e earlier ih =>
    cases h with
    | cons h hrest =>
      obtain ⟨c₀, hfirst, hsecond⟩ := ih hrest
      exact ⟨c₀, .cons h hfirst, hsecond⟩

theorem Path.copy_eq_document {event : Event} (h : Path c (history ++ [(i, event)]) c') :
    c'.copy i = c'.document := by
  obtain ⟨c₀, -, hlast⟩ := h.exists_of_append
  cases hlast with
  | cons h hrest =>
    cases hrest
    exact h.copy_eq_document

/-- Opening leaves the document alone. -/
theorem Path.document_eq (h : Path c history c') (hreopen : ∀ e ∈ history, e.2 = .reopen) :
    c'.document = c.document := by
  induction h with
  | nil c => rfl
  | cons h hrest ih =>
    obtain ⟨he, hreopen⟩ := List.forall_mem_cons.1 hreopen
    rw [ih hreopen]
    cases h with
    | call h => cases he
    | reopen j => rfl

/-- **Between two openings a copy gets the writes of its handle**, and no others. -/
theorem Path.own (h : Path c history c') (hopen : (i, .reopen) ∉ history) :
    Snapshot.Path (c.copy i) (own i history) (c'.copy i) := by
  induction h with
  | nil c => exact .nil _
  | @cons c c₁ c' e history h hrest ih =>
    have hpath := ih fun hmem => hopen (List.mem_cons_of_mem e hmem)
    obtain ⟨j, event⟩ := e
    by_cases hj : j = i
    · subst hj
      rw [own_cons_self]
      cases h with
      | call h =>
        rw [copy_set_self] at hpath
        exact .call h hpath
      | reopen => exact absurd List.mem_cons_self hopen
    · rw [own_cons_of_ne hj]
      rwa [h.copy_eq (Ne.symm hj)] at hpath

/-- **A handle alone** has what is in the document. -/
theorem Path.alone (h : Path c history c') (hown : ∀ e ∈ history, e.1 = i)
    (hcopy : c.copy i = c.document) :
    Snapshot.Path c.document (history.map Prod.snd) c'.document := by
  induction h with
  | nil c => exact .nil _
  | @cons c c₁ c' e history h hrest ih =>
    obtain ⟨he, hrestown⟩ := List.forall_mem_cons.1 hown
    obtain ⟨j, event⟩ := e
    obtain rfl : j = i := he
    have hpath := ih hrestown h.copy_eq_document
    cases h with
    | call h =>
      rw [hcopy] at h
      exact .call h hpath
    | reopen => exact .reopen hpath

end Copies

end Store

end Firewall
